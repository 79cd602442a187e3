import MarkdownNodes.Proofs.Render.Agreement
import MarkdownNodes.Proofs.Render.Rules

/-! What the cleaning of addresses touches. Renderers that differ in it only fail alike and leave the same
records; the nodes they end in hang together in the same way around the same text, and are the same once the
links and the sources of images are masked. -/

namespace MarkdownNodes

namespace Node

/-! ### Shapes -/

mutual

/-- The shape of a node: how the nodes inside hang together, and what they contain besides, without tags and
attributes. -/
def shape : Node → Node
  | ⟨_, _, content⟩ => ⟨.fragment, [], contentShape content⟩

def contentShape : Content Node → Content Node
  | .nodes ns => .nodes (shapeOf ns)
  | content => content

def shapeOf : List Node → List Node
  | [] => []
  | n :: ns => shape n :: shapeOf ns

end

theorem shape_eq (n : Node) : n.shape = ⟨.fragment, [], contentShape n.content⟩ := by
  rcases n with ⟨kind, attrs, content⟩
  rw [shape]

mutual

/-- The text is part of the shape. -/
theorem textChars_shape : ∀ n : Node, n.shape.textChars = n.textChars
  | ⟨_, _, content⟩ => by rw [shape, textChars, textChars, contentTextChars_contentShape content]

theorem contentTextChars_contentShape :
    ∀ content : Content Node, contentTextChars (contentShape content) = contentTextChars content
  | .nodes ns => by rw [contentShape, contentTextChars, contentTextChars, textCharsOf_shapeOf ns]
  | .empty | .text _ | .html _ => by rw [contentShape]; simp

theorem textCharsOf_shapeOf : ∀ ns : List Node, textCharsOf (shapeOf ns) = textCharsOf ns
  | [] => by rw [shapeOf]
  | n :: ns => by rw [shapeOf, textCharsOf, textCharsOf, textChars_shape n, textCharsOf_shapeOf ns]

end

theorem text_of_shapeOf_eq {ns ms : List Node} (h : shapeOf ns = shapeOf ms) : text ns = text ms := by
  rw [text, text, ← textCharsOf_shapeOf, h, textCharsOf_shapeOf]

/-! ### Masks -/

variable (mark : String)

/-- The node with a mark for its tag and for its address and title. -/
def maskLink (n : Node) : Node :=
  { (n.set "href" (.str mark)).set "title" (.str mark) with kind := .element mark }

/-- The node with a mark for the source of its image. -/
def maskSource (n : Node) : Node := n.set "src" (.str mark)

end Node

/-- The policy, with another way of cleaning addresses. -/
def Policy.cleaning (policy : Policy) (clean : String → Option String) : Policy := { policy with cleanUrl := clean }

namespace Policy

variable (policy policy' : Policy) (mark href : String) (title : Option String)

/-- Nothing remains of what the policy made of an address once it is masked. -/
theorem maskLink_link (content : List Node) :
    (policy.link href title content).maskLink mark =
      ⟨.element mark, [("href", .str mark), ("title", .str mark)], .nodes content⟩ := by
  rw [link]
  split
  · rfl
  · cases title with
    | none => rfl
    | some title => by_cases h : title = "" <;> simp [h, Node.maskLink, Node.set, Node.hold, Node.element, Entries.set]

theorem maskSource_image (alt : String) :
    (policy.image href title alt).maskSource mark = (policy'.image href title alt).maskSource mark := by
  cases title <;> simp [image, Node.maskSource, Node.set, Node.element, Entries.set]

end Policy

open Node

/-- The second forest is the first with nodes masked that the policy has made for link and image tokens among
those given. -/
inductive Masks (policy : Policy) (tokens : List Token) (mark : String) : List Node → List Node → Prop where
  | nil : Masks policy tokens mark [] []
  | same (n : Node) {ks ls : List Node} (hrest : Masks policy tokens mark ks ls) :
      Masks policy tokens mark (n :: ks) (n :: ls)
  | around (kind : Node.Kind) (attrs : Entries AttrValue) {ns ms ks ls : List Node}
      (hinner : Masks policy tokens mark ns ms) (hrest : Masks policy tokens mark ks ls) :
      Masks policy tokens mark (⟨kind, attrs, .nodes ns⟩ :: ks) (⟨kind, attrs, .nodes ms⟩ :: ls)
  | link {raw href : String} {title : Option String} {s : String} {ts : List Token}
      (hlink : Token.link raw href title s ts ∈ tokens) {ns ms ks ls : List Node}
      (hinner : Masks policy tokens mark ns ms) (hrest : Masks policy tokens mark ks ls) :
      Masks policy tokens mark (policy.link href title ns :: ks) ((policy.link href title ms).maskLink mark :: ls)
  | image {raw href : String} {title : Option String} {s : String}
      (himage : Token.image raw href title s ∈ tokens) {ks ls : List Node} (hrest : Masks policy tokens mark ks ls) :
      Masks policy tokens mark (policy.image href title s :: ks) ((policy.image href title s).maskSource mark :: ls)

namespace Masks

variable {policy : Policy} {tokens : List Token} {mark : String} {ns ms ks ls : List Node}

theorem refl (ns : List Node) : Masks policy tokens mark ns ns := by
  induction ns with
  | nil => exact .nil
  | cons n ns ih => exact .same n ih

theorem append (h : Masks policy tokens mark ns ms) (hmore : Masks policy tokens mark ks ls) :
    Masks policy tokens mark (ns ++ ks) (ms ++ ls) := by
  induction h with
  | nil => exact hmore
  | same n _ ih => exact .same n ih
  | around kind attrs hinner _ _ ih => exact .around kind attrs hinner ih
  | link hlink hinner _ _ ih => exact .link hlink hinner ih
  | image himage _ ih => exact .image himage ih

theorem hold (n : Node) (h : Masks policy tokens mark ns ms) :
    Masks policy tokens mark [n.hold ns] [n.hold ms] := .around n.kind n.attrs h .nil

/-- Masked nodes have the shape they had. -/
theorem shapeOf_eq (h : Masks policy tokens mark ns ms) : shapeOf ns = shapeOf ms := by
  induction h with
  | nil => rfl
  | same n _ ih => rw [shapeOf, shapeOf, ih]
  | around kind attrs _ _ ihinner ihrest =>
      rw [shapeOf, shapeOf, shape, shape, contentShape, contentShape, ihinner, ihrest]
  | link _ _ _ ihinner ihrest =>
      rw [shapeOf, shapeOf, ihrest, shape_eq, shape_eq, Policy.maskLink_link, Policy.content_link, contentShape,
        contentShape, ihinner]
  | image _ _ ih =>
      rw [shapeOf, shapeOf, ih]
      congr 1

end Masks

section Alike

variable (policy : Policy) (clean clean' : String → Option String) (tokens : List Token) (mark : String)

/-- The forests of a policy with two ways of cleaning addresses come to the same once masked. -/
def MaskedAlike (ns ns' : List Node) : Prop :=
  ∃ ms, Masks (policy.cleaning clean) tokens mark ns ms ∧ Masks (policy.cleaning clean') tokens mark ns' ms

/-- The forests of a policy with two ways of cleaning addresses are the same but for these. -/
structure SameButAddresses (ns ns' : List Node) : Prop where
  shape : shapeOf ns = shapeOf ns'
  text : text ns = text ns'
  masked : MaskedAlike policy clean clean' tokens mark ns ns'

end Alike

namespace MaskedAlike

variable {policy : Policy} {clean clean' : String → Option String} {tokens : List Token} {mark : String}
  {ns ns' ks ks' : List Node}

theorem refl (ns : List Node) : MaskedAlike policy clean clean' tokens mark ns ns := ⟨ns, .refl ns, .refl ns⟩

theorem append (h : MaskedAlike policy clean clean' tokens mark ns ns')
    (hmore : MaskedAlike policy clean clean' tokens mark ks ks') :
    MaskedAlike policy clean clean' tokens mark (ns ++ ks) (ns' ++ ks') := by
  obtain ⟨ms, hms, hms'⟩ := h
  obtain ⟨ls, hls, hls'⟩ := hmore
  exact ⟨ms ++ ls, hms.append hls, hms'.append hls'⟩

theorem hold (n : Node) (h : MaskedAlike policy clean clean' tokens mark ns ns') :
    MaskedAlike policy clean clean' tokens mark [n.hold ns] [n.hold ns'] := by
  obtain ⟨ms, hms, hms'⟩ := h
  exact ⟨[n.hold ms], hms.hold n, hms'.hold n⟩

/-- Links around the same content come to the same, whether or not their address is refused. -/
theorem link {raw href : String} {title : Option String} {s : String} {ts : List Token}
    (hlink : Token.link raw href title s ts ∈ tokens) (h : MaskedAlike policy clean clean' tokens mark ns ns') :
    MaskedAlike policy clean clean' tokens mark [(policy.cleaning clean).link href title ns]
      [(policy.cleaning clean').link href title ns'] := by
  obtain ⟨ms, hms, hms'⟩ := h
  refine ⟨_, .link hlink hms .nil, ?_⟩
  rw [Policy.maskLink_link, ← Policy.maskLink_link (policy.cleaning clean')]
  exact .link hlink hms' .nil

theorem image {raw href : String} {title : Option String} {s : String}
    (himage : Token.image raw href title s ∈ tokens) :
    MaskedAlike policy clean clean' tokens mark [(policy.cleaning clean).image href title s]
      [(policy.cleaning clean').image href title s] := by
  refine ⟨_, .image himage .nil, ?_⟩
  rw [Policy.maskSource_image (policy.cleaning clean) (policy.cleaning clean')]
  exact .image himage .nil

theorem sameButAddresses (h : MaskedAlike policy clean clean' tokens mark ns ns') :
    SameButAddresses policy clean clean' tokens mark ns ns' := by
  obtain ⟨ms, hms, hms'⟩ := h
  have hshape : shapeOf ns = shapeOf ns' := hms.shapeOf_eq.trans hms'.shapeOf_eq.symm
  exact ⟨hshape, text_of_shapeOf_eq hshape, ms, hms, hms'⟩

theorem carries : Carries (MaskedAlike policy clean clean' tokens mark) (policy.cleaning clean)
    (policy.cleaning clean') where
  nil := .refl []
  append := .append
  item h _ _ := ((MaskedAlike.refl _).append h).hold _
  cell h _ _ := h.hold _
  row h := h.hold _

end MaskedAlike

namespace Renderer

/-- The renderer, with another way of cleaning addresses. -/
def cleaning (r : Renderer) (clean : String → Option String) : Renderer :=
  { r with policy := r.policy.cleaning clean }

section Cleaning

variable {r : Renderer} {clean clean' : String → Option String} {tokens : List Token} {mark : String}

/-! ### The built-in rules -/

theorem alike_leaf (ns : List Node) :
    Recipe.Alike (MaskedAlike r.policy clean clean' tokens mark) (.leaf ns) (.leaf ns) :=
  .leaf (.refl ns)

theorem alike_aroundInline (n : Node) :
    Recipe.Alike (MaskedAlike r.policy clean clean' tokens mark) (.aroundInline n.hold) (.aroundInline n.hold) :=
  .around _ fun _ _ h => h.hold n

theorem alike_textRecipe (rule : TextRule) (s : String) (parsed : Bool) :
    Recipe.Alike (MaskedAlike r.policy clean clean' tokens mark) (textRecipe rule s parsed)
      (textRecipe rule s parsed) :=
  .text (fun _ => .refl _) (fun _ _ h => h.hold (Node.fragment [])) rule s parsed

theorem alike_blockRecipe (t : Token) :
    Recipe.Alike (MaskedAlike r.policy clean clean' tokens mark) ((r.cleaning clean).blockRecipe t)
      ((r.cleaning clean').blockRecipe t) := by
  cases t with
  | space | hr | code | html => exact alike_leaf _
  | heading | paragraph => exact alike_aroundInline _
  | text raw s ts escaped => exact alike_textRecipe _ _ _
  | blockquote | list => exact .around _ fun _ _ h => h.hold _
  | listItem item => exact .around _ fun _ _ h => MaskedAlike.carries.item h item.task item.checked
  | table =>
      exact .both _ _ fun _ _ _ _ hheader hrows => (((hheader.hold _).hold _).append (hrows.hold _)).hold _
  | _ => exact .unknown

theorem alike_inlineRecipe (rule : TextRule) {t : Token} (ht : t ∈ tokens) :
    Recipe.Alike (MaskedAlike r.policy clean clean' tokens mark) ((r.cleaning clean).inlineRecipe rule t)
      ((r.cleaning clean').inlineRecipe rule t) := by
  cases t with
  | escape | html | codespan | br => exact alike_leaf _
  | strong | em | del => exact alike_aroundInline _
  | text raw s ts escaped => exact alike_textRecipe _ _ _
  | link raw href title s ts => exact .around _ fun _ _ h => h.link ht
  | image raw href title s => exact .leaf (.image ht)
  | _ => exact .unknown

theorem alike_recipe (level : Level) {t : Token} (ht : t ∈ tokens) :
    Recipe.Alike (MaskedAlike r.policy clean clean' tokens mark) ((r.cleaning clean).recipe level t)
      ((r.cleaning clean').recipe level t) := by
  rcases level with top | _ | _ | _
  · exact alike_blockRecipe t
  · exact alike_inlineRecipe r.text ht
  · exact alike_inlineRecipe .bracketed ht
  · exact .plain (fun _ => .refl _) t

/-! ### Extensions -/

/-- An action puts the children into an element, gives them as they are, or keeps their text, in which there is no
address. -/
theorem keeps_action (silent : Bool) (mode : Mode) (source : String) (action : Action) :
    (action.handling silent mode source).Keeps (MaskedAlike r.policy clean clean' tokens mark) := by
  cases action with
  | defer | error => trivial
  | suppress | node | nodes | text | raw | mode | silent => exact MaskedAlike.refl _
  | wrapBlock | wrapInline => exact fun _ _ h => h.hold _
  | unwrapBlock | unwrapInline => exact fun _ _ h => h
  | plainText =>
      intro ns ns' h
      simp only [h.sameButAddresses.text]
      exact MaskedAlike.refl _

theorem keeps_handling (mode : Mode) (t : Token) :
    (r.handling mode t).Keeps (MaskedAlike r.policy clean clean' tokens mark) := by
  rw [handling]
  cases r.extensions.rule? t.kind with
  | none => trivial
  | some rule =>
      by_cases happlies : rule.appliesIn mode = true
      · simp only [if_pos happlies]
        exact keeps_action r.silent mode t.raw rule.action
      · simp only [if_neg happlies]
        trivial

/-! ### Whole renderings -/

theorem renderToken_cleaning (t : Token) (ht : t.all ⊆ tokens) : ∀ level,
    Run.Agree (MaskedAlike r.policy clean clean' tokens mark) ((r.cleaning clean).renderToken level t)
      ((r.cleaning clean').renderToken level t) := by
  induction t using Token.induct with
  | step t ih =>
      intro level
      have hcarries : Carries (MaskedAlike r.policy clean clean' tokens mark) (r.cleaning clean).policy
          (r.cleaning clean').policy := MaskedAlike.carries
      have hparts : ∀ part, Run.Agree (MaskedAlike r.policy clean clean' tokens mark)
          ((r.cleaning clean).parts t part) ((r.cleaning clean').parts t part) :=
        parts_agree_self hcarries fun u hu => ih u hu fun v hv => ht (Token.mem_all_of_mem_inner hu hv)
      have hunknown : Run.Agree (fun n n' => MaskedAlike r.policy clean clean' tokens mark [n] [n'])
          (r.unknown level.mode t.kind) (r.unknown level.mode t.kind) := .refl (fun n => MaskedAlike.refl [n]) _
      have hbuiltIn : Run.Agree (MaskedAlike r.policy clean clean' tokens mark)
          ((r.cleaning clean).builtIn level t ((r.cleaning clean).parts t))
          ((r.cleaning clean').builtIn level t ((r.cleaning clean').parts t)) := by
        rw [builtIn_eq_run, builtIn_eq_run]
        exact (alike_recipe level (ht (Token.mem_all_self t))).run_agree hunknown fun part _ => hparts part
      have hoffer : Run.Agree (· = ·) (r.offer level.mode t) (r.offer level.mode t) := .refl (fun _ => rfl) _
      rw [renderToken_eq_step, renderToken_eq_step, step_eq, step_eq]
      exact hoffer.andThen fun _ _ _ => Handling.run_agree (keeps_handling level.mode t) hbuiltIn hparts

end Cleaning

theorem renderTokens_cleaning (r : Renderer) (clean clean' : String → Option String) (mark : String) (level : Level)
    (ts : List Token) :
    Run.Agree (MaskedAlike r.policy clean clean' (Token.allOf ts) mark) ((r.cleaning clean).renderTokens level ts)
      ((r.cleaning clean').renderTokens level ts) := by
  have hcarries : Carries (MaskedAlike r.policy clean clean' (Token.allOf ts) mark) (r.cleaning clean).policy
      (r.cleaning clean').policy := MaskedAlike.carries
  exact renderTokens_agree_self hcarries fun t ht =>
    renderToken_cleaning t (fun u hu => List.mem_flatMap.mpr ⟨t, ht, hu⟩) level

/-- The cleaning of addresses can change nothing but addresses. Whichever way they are cleaned, a rendering ends in
the same error or in nodes that are the same but for addresses, calls the same extensions and logs the same; the
bare text is the same, and a link holds its content, refused or not. -/
theorem only_addresses_change (r : Renderer) (clean clean' : String → Option String) (mark : String)
    (ts : List Token) :
    (∀ level, Run.Agree (SameButAddresses r.policy clean clean' (Token.allOf ts) mark)
      ((r.cleaning clean).renderTokens level ts) ((r.cleaning clean').renderTokens level ts)) ∧
    (r.cleaning clean).bareText ts = (r.cleaning clean').bareText ts ∧
    (∀ href title content, ((r.policy.cleaning clean).link href title content).inner =
      ((r.policy.cleaning clean').link href title content).inner) := by
  refine ⟨fun level => ?nodes, ?text, fun href title content => ?link⟩
  case nodes => exact (renderTokens_cleaning r clean clean' mark level ts).imp fun ns ns' h => h.sameButAddresses
  case text =>
    have hrun := renderTokens_cleaning r clean clean' mark (.inline .plain) ts
    exact (hrun.map fun ns ns' h => h.sameButAddresses.text).eq
  case link => rw [Policy.inner_link, Policy.inner_link]

end Renderer
end MarkdownNodes
