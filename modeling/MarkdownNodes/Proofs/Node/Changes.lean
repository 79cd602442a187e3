import Mathlib.Data.List.DropRight
import MarkdownNodes.Proofs.Entries
import MarkdownNodes.Proofs.Node.Walk

/-! Nodes that are changed step by step. A change sets an attribute, puts other content in the place of what is
there, or adds a node at the end. Attributes and content keep apart: the attributes are entries that are set one
after the other, and inside a node are what the last replacement left and what was added since. In a node that is
made like this, and at every depth inside it, no attribute comes twice. -/

namespace MarkdownNodes.Node

/-- A step in making a node. -/
inductive Change where
  | set (name : String) (value : AttrValue)
  | holdText (s : String)
  | holdHtml (s : String)
  | hold (nodes : List Node)
  | push (child : Node)

namespace Change

def apply (node : Node) : Change → Node
  | .set name value => node.set name value
  | .holdText s => node.holdText s
  | .holdHtml s => node.holdHtml s
  | .hold nodes => node.hold nodes
  | .push child => Node.push child node

/-- The attribute that a change sets. -/
def attr? : Change → Option (String × AttrValue)
  | .set name value => some (name, value)
  | _ => none

/-- The change is one of attributes; every other is one of content. -/
def isAttr (change : Change) : Bool := change.attr?.isSome

/-- The nodes that are left inside, if the change replaces what was there. -/
def replacement? : Change → Option (List Node)
  | .hold nodes => some nodes
  | .holdText _ | .holdHtml _ => some []
  | _ => none

/-- The node that a change adds to those that are there. -/
def addition? : Change → Option Node
  | .push child => some child
  | _ => none

/-- The text that a change of content leaves, if it is text that it leaves. -/
def text? : Change → Option String
  | .holdText s => some s
  | _ => none

/-- The nodes that a change brings. -/
def inner : Change → List Node
  | .hold nodes => nodes
  | .push child => [child]
  | _ => []

/-- The attributes that are set, one after the other. -/
def attrsOf (changes : List Change) : Entries AttrValue := changes.filterMap attr?

/-- The changes of content. -/
def ofContent (changes : List Change) : List Change := changes.filter fun change => !change.isAttr

theorem ofContent_cons (change : Change) (changes : List Change) :
    ofContent (change :: changes) = if change.isAttr then ofContent changes else change :: ofContent changes := by
  cases h : change.isAttr <;> simp [ofContent, h]

theorem ofContent_append (changes more : List Change) :
    ofContent (changes ++ more) = ofContent changes ++ ofContent more := List.filter_append changes more

end Change

/-- The node after changes, one after the other. -/
def changed (start : Node) (changes : List Change) : Node := changes.foldl Change.apply start

@[simp] theorem changed_nil (start : Node) : start.changed [] = start := rfl

@[simp] theorem changed_cons (start : Node) (change : Change) (changes : List Change) :
    start.changed (change :: changes) = (change.apply start).changed changes := rfl

theorem changed_concat (start : Node) (changes : List Change) (change : Change) :
    start.changed (changes ++ [change]) = change.apply (start.changed changes) := by
  rw [changed, List.foldl_append]
  rfl

/-! ### One change -/

theorem kind_apply (node : Node) (change : Change) : (change.apply node).kind = node.kind := by
  cases change with
  | push child => rcases node with ⟨kind, attrs, _ | _ | _ | _⟩ <;> rfl
  | _ => rfl

theorem attrs_apply (node : Node) (change : Change) :
    (change.apply node).attrs = node.attrs.setAll change.attr?.toList := by
  cases change with
  | push child => rcases node with ⟨kind, attrs, _ | _ | _ | _⟩ <;> rfl
  | _ => rfl

theorem attrs_apply_of_content {change : Change} (h : ¬ change.isAttr) (node : Node) :
    (change.apply node).attrs = node.attrs := by
  rw [attrs_apply, Option.not_isSome_iff_eq_none.mp h]
  rfl

theorem content_apply_of_attr {change : Change} (h : change.isAttr) (node : Node) :
    (change.apply node).content = node.content := by
  cases change with
  | set name value => rfl
  | _ => cases h

/-- What a change makes of the content hangs on the content alone. -/
theorem content_apply_congr {node other : Node} (h : node.content = other.content) (change : Change) :
    (change.apply node).content = (change.apply other).content := by
  cases change with
  | push child => cases hcontent : other.content <;> simp [Change.apply, push, h, hcontent]
  | set name value => exact h
  | _ => rfl

@[simp] theorem inner_push (child node : Node) : (push child node).inner = node.inner ++ [child] := by
  rcases node with ⟨kind, attrs, _ | _ | _ | _⟩ <;> rfl

@[simp] theorem text?_push (child node : Node) : (push child node).text? = none := by
  rcases node with ⟨kind, attrs, _ | _ | _ | _⟩ <;> rfl

theorem inner_apply (node : Node) (change : Change) :
    (change.apply node).inner = change.replacement?.getD node.inner ++ change.addition?.toList := by
  cases change with
  | push child => exact inner_push child node
  | set name value => exact (List.append_nil _).symm
  | hold nodes => exact (List.append_nil _).symm
  | _ => rfl

theorem text?_apply_of_content {change : Change} (h : ¬ change.isAttr) (node : Node) :
    (change.apply node).text? = change.text? := by
  cases change with
  | push child => exact text?_push child node
  | set name value => exact absurd rfl h
  | _ => rfl

theorem text?_eq_of_content {node other : Node} (h : node.content = other.content) : node.text? = other.text? := by
  rw [text?, text?, h]

/-! ### Changes one after the other -/

theorem kind_changed (start : Node) (changes : List Change) : (start.changed changes).kind = start.kind := by
  induction changes generalizing start with
  | nil => rfl
  | cons change changes ih => rw [changed_cons, ih, kind_apply]

/-- The attributes are those that the changes set, one after the other. -/
theorem attrs_changed (start : Node) (changes : List Change) :
    (start.changed changes).attrs = start.attrs.setAll (Change.attrsOf changes) := by
  induction changes generalizing start with
  | nil => rfl
  | cons change changes ih =>
      rw [changed_cons, ih, attrs_apply]
      cases hattr : change.attr? <;> simp [Change.attrsOf, hattr]

/-- The content after changes hangs on the content before and on the changes of content. -/
theorem content_changed {start other : Node} (h : start.content = other.content) (changes : List Change) :
    (start.changed changes).content = (other.changed (Change.ofContent changes)).content := by
  induction changes generalizing start other with
  | nil => exact h
  | cons change changes ih =>
      rw [Change.ofContent_cons]
      split
      case isTrue hattr => exact ih ((content_apply_of_attr hattr start).trans h)
      case isFalse => exact ih (content_apply_congr h change)

/-- Inside are the nodes that the last replacement left, and behind them those that were added since. -/
theorem inner_changed (start : Node) (changes : List Change) : (start.changed changes).inner =
    (changes.filterMap Change.replacement?).getLast?.getD start.inner ++
      (changes.rtakeWhile fun change => change.replacement?.isNone).filterMap Change.addition? := by
  induction changes using List.reverseRecOn with
  | nil => simp
  | append_singleton changes change ih =>
      rw [changed_concat, inner_apply, ih, List.filterMap_append]
      cases hreplaces : change.replacement? with
      | none =>
          rw [List.rtakeWhile_concat_pos _ _ _ (by simp [hreplaces]), List.filterMap_append]
          cases hadds : change.addition? <;> simp [hreplaces, hadds]
      | some nodes =>
          have hadds : change.addition? = none := by
            cases change with
            | push child => cases hreplaces
            | _ => rfl
          rw [List.rtakeWhile_concat_neg _ _ _ (by simp [hreplaces])]
          simp [hreplaces, hadds]

/-- The node has text if the last change of content left text. -/
theorem text?_changed (start : Node) (changes : List Change) : (start.changed changes).text? =
    ((Change.ofContent changes).getLast?.map Change.text?).getD start.text? := by
  induction changes using List.reverseRecOn with
  | nil => rfl
  | append_singleton changes change ih =>
      rw [changed_concat, Change.ofContent_append, Change.ofContent_cons]
      split
      case isTrue hattr =>
          have hnone : Change.ofContent [] = [] := rfl
          rw [text?_eq_of_content (content_apply_of_attr hattr _), ih, hnone, List.append_nil]
      case isFalse hattr =>
          rw [text?_apply_of_content hattr]
          simp [Change.ofContent]

/-! ### All that changes do -/

/-- What becomes of a node by changes, one after the other. -/
structure Becomes (start : Node) (changes : List Change) (node : Node) : Prop where
  kind : node.kind = start.kind
  /-- No attribute comes twice. -/
  nodup : node.attrs.names.Nodup
  /-- The attributes are listed in the order in which they were first set. -/
  names : node.attrs.names = (start.attrs.names ++ (Change.attrsOf changes).names).eraseDups
  /-- The value that an attribute was last set to is the one that is found. -/
  last (name : String) : node.attr? name =
    (((Change.attrsOf changes).filter fun entry => entry.1 == name).getLast?.map Prod.snd).or (start.attr? name)
  /-- Changes of content do nothing to attributes. -/
  attrs : node.attrs = start.attrs.setAll (Change.attrsOf changes)
  /-- Changes of attributes do nothing to content. -/
  content : node.content = (start.changed (Change.ofContent changes)).content
  /-- Inside are the nodes that the last replacement left, and behind them those that were added since. -/
  inner : node.inner = (changes.filterMap Change.replacement?).getLast?.getD start.inner ++
    (changes.rtakeWhile fun change => change.replacement?.isNone).filterMap Change.addition?
  /-- The last change of content decides whether there is text, and which. -/
  text? : node.text? =
    ((Change.ofContent changes).getLast?.map Change.text?).getD start.text?

theorem nodup_changed {start : Node} (h : start.attrs.names.Nodup) (changes : List Change) :
    (start.changed changes).attrs.names.Nodup := by
  rw [attrs_changed]
  exact Entries.nodup_names_setAll h _

theorem names_changed {start : Node} (h : start.attrs.names.Nodup) (changes : List Change) :
    (start.changed changes).attrs.names =
      (start.attrs.names ++ (Change.attrsOf changes).names).eraseDups := by
  rw [attrs_changed, Entries.names_setAll, List.eraseDups_append, eraseDups_of_nodup h]

theorem attr?_changed (start : Node) (changes : List Change) (name : String) : (start.changed changes).attr? name =
    (((Change.attrsOf changes).filter fun entry => entry.1 == name).getLast?.map Prod.snd).or
      (start.attr? name) := by
  rw [attr?, attrs_changed, Entries.get?_setAll, Entries.get?_reverse]
  rfl

/-- A change leaves the kind of a node alone, and either its content or its attributes. Whatever changes follow one
another, no attribute comes twice in what becomes of the node, and attributes, nodes inside and text are those of the
last changes that have to do with them. -/
theorem becomes_changed :
    (∀ (node : Node) (change : Change), (change.apply node).kind = node.kind ∧
      if change.isAttr then (change.apply node).content = node.content
      else (change.apply node).attrs = node.attrs) ∧
    ∀ (start : Node) (changes : List Change), start.attrs.names.Nodup →
      start.Becomes changes (start.changed changes) := by
  refine ⟨fun node change => ⟨kind_apply node change, ?_⟩, fun start changes h => ?_⟩
  · split
    case isTrue hattr => exact content_apply_of_attr hattr node
    case isFalse hattr => exact attrs_apply_of_content hattr node
  · exact { kind := kind_changed start changes
            nodup := nodup_changed h changes
            names := names_changed h changes
            last := attr?_changed start changes
            attrs := attrs_changed start changes
            content := content_changed rfl changes
            inner := inner_changed start changes
            text? := text?_changed start changes }

/-- A span of text with a class that comes to hold other nodes, with attributes that are set on the way. -/
theorem becomes_changed_of_span :
    ((span "old").set "class" (.str "x")).attrs.names.Nodup ∧
      ((span "old").set "class" (.str "x")).Becomes
        [.push (element "br"), .set "id" (.int 1), .hold [element "hr"], .set "class" (.bool true), .push (span "new")]
        { kind := .element "span", attrs := [("class", .bool true), ("id", .int 1)],
          content := .nodes [element "hr", span "new"] } :=
  ⟨by decide, becomes_changed.2 _ _ (by decide)⟩

/-! ### Nodes that can be made -/

/-- The node is made from an element, or from a fragment of nodes that are made, by changes that bring nodes that
are made. -/
inductive Built : Node → Prop
  | element (tag : String) : Built (element tag)
  | fragment {nodes : List Node} (h : ∀ n ∈ nodes, Built n) : Built (fragment nodes)
  | apply {node : Node} {change : Change} (hnode : Built node) (h : ∀ n ∈ change.inner, Built n) :
      Built (change.apply node)

/-- No attribute comes twice in the node, and in none at any depth inside it. -/
def DistinctAttrs (node : Node) : Prop := ∀ n ∈ node.all, n.attrs.names.Nodup

theorem distinctAttrs_iff {node : Node} :
    node.DistinctAttrs ↔ node.attrs.names.Nodup ∧ ∀ n ∈ node.inner, n.DistinctAttrs := by
  rw [DistinctAttrs, all_eq, List.forall_mem_cons]
  simp only [DistinctAttrs, mem_allOf]
  exact and_congr_right fun _ =>
    ⟨fun h n hn m hm => h m ⟨n, hn, hm⟩, fun h m ⟨n, hn, hm⟩ => h n hn m hm⟩

theorem Built.changed {start : Node} (h : start.Built) {changes : List Change}
    (hchanges : ∀ change ∈ changes, ∀ n ∈ change.inner, n.Built) : (start.changed changes).Built := by
  induction changes generalizing start with
  | nil => exact h
  | cons change changes ih =>
      exact ih (h.apply (hchanges change List.mem_cons_self)) fun c hc => hchanges c (List.mem_cons_of_mem change hc)

theorem Built.span (s : String) : (span s).Built :=
  @Built.apply (.element "span") (.holdText s) (.element "span") fun _ hn => absurd hn List.not_mem_nil

theorem mem_inner_apply {n node : Node} {change : Change} (h : n ∈ (change.apply node).inner) :
    n ∈ node.inner ∨ n ∈ change.inner := by
  cases change with
  | set name value => exact .inl h
  | hold nodes => exact .inr h
  | push child => exact List.mem_append.mp (inner_push child node ▸ h)
  | _ => cases h

theorem Built.distinctAttrs {node : Node} (h : node.Built) : node.DistinctAttrs := by
  induction h with
  | element tag => exact distinctAttrs_iff.mpr ⟨List.nodup_nil, fun n hn => absurd hn List.not_mem_nil⟩
  | fragment _ ih => exact distinctAttrs_iff.mpr ⟨List.nodup_nil, ih⟩
  | @apply node change _ _ ihnode ih =>
      obtain ⟨hnames, hinner⟩ := distinctAttrs_iff.mp ihnode
      refine distinctAttrs_iff.mpr ⟨nodup_changed hnames [change], fun n hn => ?_⟩
      rcases mem_inner_apply hn with hn | hn
      · exact hinner n hn
      · exact ih n hn

end MarkdownNodes.Node
