import MarkdownNodes.Proofs.Node.Walk
import MarkdownNodes.Render.Policy

/-! The nodes that the built-in rules make: what a link comes to, what is inside each of them, and what is
left of them when nodes of a kind are deleted inside. -/

namespace MarkdownNodes

variable (p : Node → Bool)

namespace Policy

theorem link_of_clean_none {policy : Policy} {href : String} (h : policy.cleanUrl href = none)
    (title : Option String) (content : List Node) :
    policy.link href title content = (Node.element "span").hold content := by
  rw [link, h]

/-- A link to an address that is not refused has it as its first attribute. -/
theorem link_of_clean_some {policy : Policy} {href url : String} (h : policy.cleanUrl href = some url)
    (title : Option String) (content : List Node) : ∃ more, policy.link href title content =
      { kind := .element "a", attrs := ("href", .str url) :: more, content := .nodes content } := by
  rw [link, h]
  cases title with
  | none => exact ⟨[], rfl⟩
  | some title =>
      by_cases hempty : title = ""
      · exact ⟨[], by simp [hempty]; rfl⟩
      · exact ⟨[("title", .str title)], by simp [hempty]; rfl⟩

variable (policy : Policy)

/-- What an address and a title come to does not hang on the content. -/
theorem link_eq_hold (href : String) (title : Option String) (content : List Node) :
    policy.link href title content = (policy.link href title []).hold content := by
  rw [link, link]
  cases policy.cleanUrl href <;> rfl

theorem content_link (href : String) (title : Option String) (content : List Node) :
    (policy.link href title content).content = .nodes content := by
  rw [link_eq_hold]
  rfl

@[simp] theorem inner_link (href : String) (title : Option String) (content : List Node) :
    (policy.link href title content).inner = content := by
  rw [Node.inner, content_link]

@[simp] theorem without_link (href : String) (title : Option String) (content : List Node) :
    (policy.link href title content).without p = policy.link href title (Node.withoutOf p content) := by
  rw [link, link]
  cases policy.cleanUrl href with
  | none => simp
  | some url =>
      cases title with
      | none => simp
      | some title => by_cases h : title = "" <;> simp [h]

theorem content_image (href : String) (title : Option String) (alt : String) :
    (policy.image href title alt).content = .empty := by
  cases title <;> rfl

@[simp] theorem inner_image (href : String) (title : Option String) (alt : String) :
    (policy.image href title alt).inner = [] := by
  rw [Node.inner, content_image]

@[simp] theorem without_image (href : String) (title : Option String) (alt : String) :
    (policy.image href title alt).without p = policy.image href title alt := by
  cases title <;> simp [image]

/-- The element around the text of a block of code, with its class if there is a language. -/
def codeBody (s : String) (lang : Option String) (escaped : Bool) : Node :=
  let body := endingWithLine s
  let inner := (Node.element "code").holdHtml (if escaped then body else policy.escapeCode body true)
  match firstWord? lang with
  | some word => inner.set "class" (.str ("code--" ++ policy.escapeCode word true))
  | none => inner

@[simp] theorem inner_code (s : String) (lang : Option String) (escaped : Bool) :
    (policy.code s lang escaped).inner = [policy.codeBody s lang escaped] := by
  rw [code, codeBody]
  cases firstWord? lang <;> rfl

theorem content_codeBody (s : String) (lang : Option String) (escaped : Bool) :
    (policy.codeBody s lang escaped).content =
      .html (if escaped then endingWithLine s else policy.escapeCode (endingWithLine s) true) := by
  rw [codeBody]
  cases firstWord? lang <;> rfl

@[simp] theorem inner_codeBody (s : String) (lang : Option String) (escaped : Bool) :
    (policy.codeBody s lang escaped).inner = [] := by
  rw [Node.inner, content_codeBody]

theorem content_checkbox (checked : Bool) : (checkbox checked).content = .empty := by
  cases checked <;> rfl

@[simp] theorem inner_checkbox (checked : Bool) : (checkbox checked).inner = [] := by
  rw [Node.inner, content_checkbox]

@[simp] theorem without_checkbox (checked : Bool) : (checkbox checked).without p = checkbox checked := by
  cases checked <;> simp [checkbox]

/-- The mark before the blocks of an item, if it has one. -/
def marks (task : Bool) (checked : Option Bool) : List Node :=
  if task && policy.checkboxes then [checkbox (checked.getD false)] else []

theorem item_eq_hold (task : Bool) (checked : Option Bool) (blocks : List Node) :
    policy.item task checked blocks = (Node.element "li").hold (policy.marks task checked ++ blocks) := rfl

@[simp] theorem inner_item (task : Bool) (checked : Option Bool) (blocks : List Node) :
    (policy.item task checked blocks).inner = policy.marks task checked ++ blocks := rfl

end Policy

namespace Node

@[simp] theorem inner_ofList (ordered : Bool) (start : UInt32) (items : List Node) :
    (ofList ordered start items).inner = items := rfl

@[simp] theorem without_ofList (ordered : Bool) (start : UInt32) (items : List Node) :
    (ofList ordered start items).without p = ofList ordered start (withoutOf p items) := by
  by_cases h : (ordered && start != 1) = true <;> simp [ofList, h]

theorem content_ofCell (header : Bool) (align : Option Align) (content : List Node) :
    (ofCell header align content).content = .nodes content := by
  cases align <;> rfl

@[simp] theorem inner_ofCell (header : Bool) (align : Option Align) (content : List Node) :
    (ofCell header align content).inner = content := by
  rw [inner, content_ofCell]

@[simp] theorem without_ofCell (header : Bool) (align : Option Align) (content : List Node) :
    (ofCell header align content).without p = ofCell header align (withoutOf p content) := by
  cases align <;> simp [ofCell]

@[simp] theorem inner_ofRow (cells : List Node) : (ofRow cells).inner = cells := rfl

@[simp] theorem without_ofRow (cells : List Node) : (ofRow cells).without p = ofRow (withoutOf p cells) := by
  simp [ofRow]

@[simp] theorem inner_ofHeading (depth : UInt8) (content : List Node) :
    (ofHeading depth content).inner = content := rfl

@[simp] theorem without_ofHeading (depth : UInt8) (content : List Node) :
    (ofHeading depth content).without p = ofHeading depth (withoutOf p content) := by
  simp [ofHeading]

@[simp] theorem inner_ofStrong (content : List Node) : (ofStrong content).inner = content := rfl

@[simp] theorem without_ofStrong (content : List Node) :
    (ofStrong content).without p = ofStrong (withoutOf p content) := by
  simp [ofStrong]

@[simp] theorem inner_ofError (mode : Mode) (message : String) : (ofError mode message).inner = [] := rfl

end Node
end MarkdownNodes
