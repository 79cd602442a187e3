import MarkdownNodes.Node.Basic
import Mathlib.Data.List.Basic

/-! Walks through render nodes. `all` lists a node and the nodes at every depth inside it in document
order, and `nested` those inside with the node that each stands in; `without` deletes the nodes of a kind at
every depth, with all that is inside them. -/

namespace MarkdownNodes.Node

theorem sizeOf_lt_of_mem_inner {n m : Node} (h : m ∈ n.inner) : sizeOf m < sizeOf n := by
  rcases n with ⟨kind, attrs, content⟩
  cases content with
  | nodes ns =>
      have hm := List.sizeOf_lt_of_mem (show m ∈ ns from h)
      simp only [mk.sizeOf_spec, Content.nodes.sizeOf_spec]
      omega
  | _ => simp [inner] at h

/-- Induction over nodes: the nodes inside come first. -/
theorem induct {P : Node → Prop} (step : ∀ n, (∀ m ∈ n.inner, P m) → P n) (n : Node) : P n :=
  step n fun m _ => induct step m
termination_by n
decreasing_by exact sizeOf_lt_of_mem_inner ‹_›

/-! ### All nodes -/

mutual

/-- The node and the nodes at every depth inside it, in document order. -/
def all : Node → List Node
  | ⟨kind, attrs, content⟩ => ⟨kind, attrs, content⟩ :: contentAll content

def contentAll : Content Node → List Node
  | .nodes ns => allOf ns
  | _ => []

/-- The nodes at every depth of a forest, in document order. -/
def allOf : List Node → List Node
  | [] => []
  | n :: ns => all n ++ allOf ns

end

theorem all_eq (n : Node) : n.all = n :: allOf n.inner := by
  rcases n with ⟨kind, attrs, content⟩
  cases content <;> simp [all, contentAll, inner, allOf]

@[simp] theorem allOf_nil : allOf [] = [] := by rw [allOf]

@[simp] theorem allOf_cons (n : Node) (ns : List Node) : allOf (n :: ns) = n.all ++ allOf ns := by rw [allOf]

@[simp] theorem allOf_append (ns ms : List Node) : allOf (ns ++ ms) = allOf ns ++ allOf ms := by
  induction ns with
  | nil => simp
  | cons n ns ih => simp [ih]

theorem allOf_eq_flatMap (ns : List Node) : allOf ns = ns.flatMap all := by
  induction ns with
  | nil => simp
  | cons n ns ih => simp [ih]

theorem allOf_flatMap {α : Type} (l : List α) (f : α → List Node) :
    allOf (l.flatMap f) = l.flatMap fun a => allOf (f a) := by
  simp only [allOf_eq_flatMap, List.flatMap_assoc]

theorem mem_allOf {m : Node} {ns : List Node} : m ∈ allOf ns ↔ ∃ n ∈ ns, m ∈ n.all := by
  rw [allOf_eq_flatMap, List.mem_flatMap]

/-! ### Nodes and what they stand in -/

mutual

/-- The nodes at every depth inside a node, in document order, each behind the node that it stands in. -/
def nested : Node → List (Node × Node)
  | ⟨kind, attrs, content⟩ => contentNested ⟨kind, attrs, content⟩ content

def contentNested (around : Node) : Content Node → List (Node × Node)
  | .nodes ns => nestedIn around ns
  | _ => []

def nestedIn (around : Node) : List Node → List (Node × Node)
  | [] => []
  | n :: ns => (around, n) :: nested n ++ nestedIn around ns

end

theorem nestedIn_eq (around : Node) (ns : List Node) :
    nestedIn around ns = ns.flatMap fun n => (around, n) :: n.nested := by
  induction ns with
  | nil => rw [nestedIn, List.flatMap_nil]
  | cons n ns ih => rw [nestedIn, ih, List.flatMap_cons]

theorem nested_eq (n : Node) : n.nested = n.inner.flatMap fun m => (n, m) :: m.nested := by
  rcases n with ⟨kind, attrs, content⟩
  cases content <;> simp [nested, contentNested, nestedIn_eq, inner]

/-- All that is nested in a node is what is inside it. -/
theorem map_snd_nested (n : Node) : n.nested.map Prod.snd = allOf n.inner := by
  induction n using induct with
  | step n ih =>
      rw [nested_eq, List.map_flatMap, allOf_eq_flatMap]
      refine List.flatMap_congr fun m hm => ?_
      rw [List.map_cons, ih m hm, all_eq]

/-! ### Text -/

theorem textCharsOf_eq_flatMap (ns : List Node) : textCharsOf ns = ns.flatMap textChars := by
  induction ns with
  | nil => rfl
  | cons n ns ih => rw [textCharsOf, ih, List.flatMap_cons]

theorem textCharsOf_flatMap {α : Type} (f : α → List Node) (xs : List α) :
    textCharsOf (xs.flatMap f) = xs.flatMap fun x => textCharsOf (f x) := by
  simp only [textCharsOf_eq_flatMap, List.flatMap_assoc]

/-! ### Nodes without some -/

mutual

/-- Deletes the nodes of a kind at every depth inside a node. -/
def without (p : Node → Bool) : Node → Node
  | ⟨kind, attrs, content⟩ => ⟨kind, attrs, contentWithout p content⟩

def contentWithout (p : Node → Bool) : Content Node → Content Node
  | .nodes ns => .nodes (withoutOf p ns)
  | content => content

/-- Deletes the nodes of a kind at every depth of a forest. -/
def withoutOf (p : Node → Bool) : List Node → List Node
  | [] => []
  | n :: ns => if p n then withoutOf p ns else without p n :: withoutOf p ns

end

section Without

variable (p : Node → Bool)

@[simp] theorem withoutOf_nil : withoutOf p [] = [] := by rw [withoutOf]

theorem withoutOf_cons (n : Node) (ns : List Node) :
    withoutOf p (n :: ns) = if p n then withoutOf p ns else n.without p :: withoutOf p ns := by
  rw [withoutOf]

theorem withoutOf_eq_map_filter (ns : List Node) :
    withoutOf p ns = (ns.filter fun n => !p n).map (without p) := by
  induction ns with
  | nil => simp
  | cons n ns ih => by_cases h : p n = true <;> simp [withoutOf_cons, ih, h]

@[simp] theorem withoutOf_append (ns ms : List Node) :
    withoutOf p (ns ++ ms) = withoutOf p ns ++ withoutOf p ms := by
  simp [withoutOf_eq_map_filter]

theorem withoutOf_flatMap {α : Type} (l : List α) (f : α → List Node) :
    withoutOf p (l.flatMap f) = l.flatMap fun a => withoutOf p (f a) := by
  induction l with
  | nil => simp
  | cons a l ih => simp [ih]

/-- Nodes that are not of the kind are kept, and only change inside. -/
theorem withoutOf_map {α : Type} (l : List α) {f : α → Node} (h : ∀ a ∈ l, p (f a) = false) :
    withoutOf p (l.map f) = l.map fun a => (f a).without p := by
  induction l with
  | nil => simp
  | cons a l ih =>
      have hrest := ih fun b hb => h b (List.mem_cons_of_mem a hb)
      simp [withoutOf_cons, h a List.mem_cons_self, hrest]

variable {p}

/-- A node that is not of the kind stays, and only changes inside. -/
theorem withoutOf_singleton {n : Node} (h : p n = false) : withoutOf p [n] = [n.without p] := by
  simp [withoutOf_cons, h]

theorem mem_allOf_cons_self (n : Node) (ns : List Node) : n ∈ allOf (n :: ns) := by simp [all_eq]

theorem mem_allOf_cons_of_inner {m n : Node} (ns : List Node) (h : m ∈ allOf n.inner) : m ∈ allOf (n :: ns) := by
  simp [all_eq, h]

theorem mem_allOf_cons_of_mem {m : Node} (n : Node) {ns : List Node} (h : m ∈ allOf ns) : m ∈ allOf (n :: ns) := by
  simp [h]

mutual

theorem without_eq_self : ∀ n : Node, (∀ m ∈ allOf n.inner, p m = false) → n.without p = n
  | ⟨_, _, .nodes ns⟩, h => by rw [without, contentWithout, withoutOf_eq_self ns h]
  | ⟨_, _, .empty⟩, _ | ⟨_, _, .text _⟩, _ | ⟨_, _, .html _⟩, _ => by simp [without, contentWithout]

/-- A forest in which no node is of the kind stays as it is. -/
theorem withoutOf_eq_self : ∀ ns : List Node, (∀ m ∈ allOf ns, p m = false) → withoutOf p ns = ns
  | [], _ => withoutOf_nil p
  | n :: ns, h => by
      rw [withoutOf_cons, if_neg (by simp [h n (mem_allOf_cons_self n ns)]),
        without_eq_self n fun m hm => h m (mem_allOf_cons_of_inner ns hm),
        withoutOf_eq_self ns fun m hm => h m (mem_allOf_cons_of_mem n hm)]

end

mutual

theorem textChars_without :
    ∀ n : Node, (∀ m ∈ allOf n.inner, p m = true → m.textChars = []) → (n.without p).textChars = n.textChars
  | ⟨_, _, .nodes ns⟩, h => textCharsOf_withoutOf ns h
  | ⟨_, _, .empty⟩, _ | ⟨_, _, .text _⟩, _ | ⟨_, _, .html _⟩, _ => by simp [without, contentWithout]

/-- Where there is no text in the nodes of the kind, the text stays the same without them. -/
theorem textCharsOf_withoutOf : ∀ ns : List Node, (∀ m ∈ allOf ns, p m = true → m.textChars = []) →
    textCharsOf (withoutOf p ns) = textCharsOf ns
  | [], _ => by rw [withoutOf]
  | n :: ns, h => by
      have hrest := textCharsOf_withoutOf ns fun m hm => h m (mem_allOf_cons_of_mem n hm)
      rw [withoutOf_cons]
      split
      case isTrue hn => rw [hrest, textCharsOf, h n (mem_allOf_cons_self n ns) hn, List.nil_append]
      case isFalse =>
        rw [textCharsOf, textCharsOf, hrest, textChars_without n fun m hm => h m (mem_allOf_cons_of_inner ns hm)]

end

end Without

/-! ### Walks through the ways of making a node -/

section Make

variable (p : Node → Bool) (node : Node)

@[simp] theorem inner_element (tag : String) : (element tag).inner = [] := rfl

@[simp] theorem inner_set (name : String) (value : AttrValue) : (node.set name value).inner = node.inner := rfl

@[simp] theorem inner_hold (ns : List Node) : (node.hold ns).inner = ns := rfl

@[simp] theorem inner_fragment (ns : List Node) : (fragment ns).inner = ns := rfl

@[simp] theorem inner_holdText (s : String) : (node.holdText s).inner = [] := rfl

@[simp] theorem inner_holdHtml (s : String) : (node.holdHtml s).inner = [] := rfl

@[simp] theorem inner_span (s : String) : (span s).inner = [] := rfl

@[simp] theorem without_element (tag : String) : (element tag).without p = element tag := by
  simp [element, without, contentWithout]

@[simp] theorem without_set (name : String) (value : AttrValue) :
    (node.set name value).without p = (node.without p).set name value := by
  rcases node with ⟨kind, attrs, content⟩
  simp [set, without]

@[simp] theorem without_hold (ns : List Node) : (node.hold ns).without p = node.hold (withoutOf p ns) := by
  simp [hold, without, contentWithout]

@[simp] theorem without_fragment (ns : List Node) : (fragment ns).without p = fragment (withoutOf p ns) := by
  simp [fragment, without, contentWithout]

@[simp] theorem without_holdText (s : String) : (node.holdText s).without p = node.holdText s := by
  simp [holdText, without, contentWithout]

@[simp] theorem without_holdHtml (s : String) : (node.holdHtml s).without p = node.holdHtml s := by
  simp [holdHtml, without, contentWithout]

@[simp] theorem without_span (s : String) : (span s).without p = span s := without_holdText p _ s

@[simp] theorem attr?_element (tag other : String) : (element tag).attr? other = none := rfl

@[simp] theorem attr?_fragment (ns : List Node) (other : String) : (fragment ns).attr? other = none := rfl

@[simp] theorem attr?_hold (ns : List Node) (other : String) :
    (node.hold ns).attr? other = node.attr? other := rfl

@[simp] theorem attr?_holdText (s other : String) : (node.holdText s).attr? other = node.attr? other := rfl

@[simp] theorem attr?_holdHtml (s other : String) : (node.holdHtml s).attr? other = node.attr? other := rfl

@[simp] theorem attr?_span (s other : String) : (span s).attr? other = none := rfl

@[simp] theorem attr?_set (name other : String) (value : AttrValue) :
    (node.set name value).attr? other = if name = other then some value else node.attr? other := by
  by_cases h : name = other
  · rw [if_pos h, ← h]
    exact Entries.get?_set_self name value node.attrs
  · rw [if_neg h]
    exact Entries.get?_set_of_ne h value node.attrs

end Make

end MarkdownNodes.Node
