/-! Named values in the order in which their names first came. Setting a name that is present replaces
its value and moves nothing; a new name goes to the end. -/

namespace MarkdownNodes

/-- Values under names, in order. -/
abbrev Entries (α : Type) := List (String × α)

namespace Entries

variable {α : Type}

def names (entries : Entries α) : List String := entries.map Prod.fst

/-- The first value under a name. -/
def get? : Entries α → String → Option α
  | [], _ => none
  | (n, v) :: rest, name => if n = name then some v else get? rest name

def set (name : String) (value : α) : Entries α → Entries α
  | [] => [(name, value)]
  | (n, v) :: rest => if n = name then (name, value) :: rest else (n, v) :: set name value rest

theorem mem_of_get? {entries : Entries α} {name : String} {value : α} (h : get? entries name = some value) :
    (name, value) ∈ entries := by
  induction entries with
  | nil => cases h
  | cons entry rest ih =>
      rw [get?] at h
      split at h
      case isTrue hname => cases h; cases hname; exact List.mem_cons_self
      case isFalse => exact List.mem_cons_of_mem entry (ih h)

@[simp] theorem get?_set_self (name : String) (value : α) (entries : Entries α) :
    get? (set name value entries) name = some value := by
  induction entries with
  | nil => simp [set, get?]
  | cons entry rest ih => by_cases h : entry.1 = name <;> simp [set, get?, h, ih]

theorem get?_set_of_ne {name other : String} (h : name ≠ other) (value : α) (entries : Entries α) :
    get? (set name value entries) other = get? entries other := by
  induction entries with
  | nil => simp [set, get?, h]
  | cons entry rest ih =>
      by_cases hname : entry.1 = name
      · simp [set, get?, hname, h]
      · simp [set, get?, hname, ih]

theorem names_set (name : String) (value : α) (entries : Entries α) :
    names (set name value entries) =
      if name ∈ names entries then names entries else names entries ++ [name] := by
  induction entries with
  | nil => simp [set, names]
  | cons entry rest ih =>
      simp only [names] at ih
      by_cases h : entry.1 = name
      · simp [set, names, h]
      · by_cases hmem : name ∈ rest.map Prod.fst <;>
          simp_all [set, names, Ne.symm h]

end MarkdownNodes.Entries
