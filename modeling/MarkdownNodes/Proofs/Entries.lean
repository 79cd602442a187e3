import Mathlib.Data.List.Forall2
import Mathlib.Data.List.Nodup
import Mathlib.Data.List.Perm.Basic
import MarkdownNodes.Entries

/-! Entries that are set one after the other. A name is listed where it was first set, with the value that it
was last set to; so where no name comes twice, entries are told apart by their names in order and by what is
found under each. -/

namespace MarkdownNodes

/-- A list in which nothing comes twice has nothing to erase. -/
theorem eraseDups_of_nodup {α : Type} [BEq α] [LawfulBEq α] {xs : List α} (h : xs.Nodup) : xs.eraseDups = xs := by
  induction xs with
  | nil => rfl
  | cons x xs ih =>
      obtain ⟨hfresh, hrest⟩ := List.nodup_cons.mp h
      have hkept : (xs.filter fun y => !y == x) = xs := List.filter_eq_self.mpr fun y hy => by
        simpa using ne_of_mem_of_not_mem hy hfresh
      rw [List.eraseDups_cons, hkept, ih hrest]

namespace Entries

variable {α : Type} {entries others : Entries α} {name : String}

/-! ### Looking up -/

theorem get?_append (entries others : Entries α) (name : String) :
    get? (entries ++ others) name = (get? entries name).or (get? others name) := by
  induction entries with
  | nil => simp [get?]
  | cons entry entries ih => by_cases h : entry.1 = name <;> simp [get?, h, ih]

theorem get?_eq_none_iff {entries : Entries α} : get? entries name = none ↔ name ∉ names entries := by
  induction entries with
  | nil => simp [get?, names]
  | cons entry entries ih =>
      have hnames : names (entry :: entries) = entry.1 :: names entries := rfl
      by_cases h : entry.1 = name
      · simp [get?, hnames, h]
      · simp [get?, hnames, h, Ne.symm h, ih]

theorem get?_eq_some_iff (h : entries.names.Nodup) {value : α} :
    get? entries name = some value ↔ (name, value) ∈ entries := by
  refine ⟨mem_of_get?, fun hmem => ?_⟩
  induction entries with
  | nil => cases hmem
  | cons entry entries ih =>
      obtain ⟨hfresh, hrest⟩ := List.nodup_cons.mp h
      rw [get?]
      rcases List.mem_cons.mp hmem with rfl | hmem
      · exact if_pos rfl
      · have hname : name ∈ names entries := List.mem_map_of_mem hmem
        have hne : entry.1 ≠ name := fun heq => hfresh (by rwa [heq])
        rw [if_neg hne, ih hrest hmem]

/-- Where no name comes twice, the order of entries does not matter. -/
theorem get?_eq_of_perm (h : entries.names.Nodup) (hperm : entries.Perm others) (name : String) :
    get? entries name = get? others name := by
  have hothers : others.names.Nodup := (hperm.map Prod.fst).nodup_iff.mp h
  ext value
  rw [get?_eq_some_iff h, get?_eq_some_iff hothers, hperm.mem_iff]

theorem get?_eq_find? (entries : Entries α) (name : String) :
    get? entries name = (entries.find? fun entry => entry.1 == name).map Prod.snd := by
  induction entries with
  | nil => rfl
  | cons entry entries ih => by_cases h : entry.1 = name <;> simp [get?, h, ih]

/-- From the back, the value that is found is the last under the name. -/
theorem get?_reverse (entries : Entries α) (name : String) :
    get? entries.reverse name = ((entries.filter fun entry => entry.1 == name).getLast?).map Prod.snd := by
  rw [get?_eq_find?, List.getLast?_filter]

theorem get?_map {β : Type} (f : α → β) (entries : Entries α) (name : String) :
    get? (entries.map fun entry => (entry.1, f entry.2)) name = (get? entries name).map f := by
  induction entries with
  | nil => rfl
  | cons entry entries ih => by_cases h : entry.1 = name <;> simp [get?, h, ih]

/-- Entries in which no name comes twice are related one by one if they have the same names in the same order and
related values under each. -/
theorem forall₂_of_rel_get? {β : Type} {R : α → β → Prop} {others : Entries β} (h : entries.names.Nodup)
    (hnames : entries.names = others.names) (hrel : ∀ name, Option.Rel R (get? entries name) (get? others name)) :
    List.Forall₂ (fun entry other => entry.1 = other.1 ∧ R entry.2 other.2) entries others := by
  induction entries generalizing others with
  | nil =>
      cases others with
      | nil => exact .nil
      | cons other others => cases hnames
  | cons entry entries ih =>
      cases others with
      | nil => cases hnames
      | cons other others =>
          obtain ⟨hname, hrest⟩ := List.cons.inj hnames
          obtain ⟨hfresh, hnodup⟩ := List.nodup_cons.mp h
          have hvalue : R entry.2 other.2 := by simpa [get?, hname] using hrel other.1
          refine .cons ⟨hname, hvalue⟩ (ih hnodup hrest fun name => ?_)
          by_cases heq : entry.1 = name
          · -- What comes first under its name is under no name of the rest.
            have hnone : get? entries name = none := get?_eq_none_iff.mpr (heq ▸ hfresh)
            have hnone' : get? others name = none := get?_eq_none_iff.mpr (by rw [names, ← hrest, ← heq]; exact hfresh)
            rw [hnone, hnone']
            exact .none
          · have hother : other.1 ≠ name := hname ▸ heq
            simpa [get?, heq, hother] using hrel name

/-- Entries in which no name comes twice are the same if they have the same names in the same order and the same
value under each. -/
theorem eq_of_get?_eq (h : entries.names.Nodup) (hnames : entries.names = others.names)
    (hget : ∀ name, get? entries name = get? others name) : entries = others := by
  have hrel : ∀ name, Option.Rel Eq (get? entries name) (get? others name) := by
    intro name
    rw [hget]
    cases get? others name with
    | none => exact .none
    | some value => exact .some rfl
  rw [← List.forall₂_eq_eq_eq]
  exact (forall₂_of_rel_get? h hnames hrel).imp fun entry other heq => Prod.ext heq.1 heq.2

/-- Entries in which no name comes twice are the same but for their order if the same is found under each name. -/
theorem perm_iff_get?_eq (h : entries.names.Nodup) (hothers : others.names.Nodup) :
    entries.Perm others ↔ ∀ name, get? entries name = get? others name := by
  refine ⟨get?_eq_of_perm h, fun hget => ?_⟩
  refine (List.perm_ext_iff_of_nodup (List.Nodup.of_map _ h) (List.Nodup.of_map _ hothers)).mpr ?_
  rintro ⟨name, value⟩
  rw [← get?_eq_some_iff h, ← get?_eq_some_iff hothers, hget]

/-! ### Setting -/

theorem nodup_names_set (h : (names entries).Nodup) (name : String) (value : α) :
    (names (set name value entries)).Nodup := by
  rw [names_set]
  split
  case isTrue => exact h
  case isFalse hfresh =>
    refine h.append (List.nodup_singleton name) ?_
    exact List.disjoint_singleton.mpr hfresh

/-- Sets values one after the other. -/
def setAll (entries others : Entries α) : Entries α :=
  others.foldl (fun entries entry => set entry.1 entry.2 entries) entries

@[simp] theorem setAll_nil (entries : Entries α) : setAll entries [] = entries := rfl

@[simp] theorem setAll_cons (entries : Entries α) (entry : String × α) (others : Entries α) :
    setAll entries (entry :: others) = setAll (set entry.1 entry.2 entries) others := rfl

theorem nodup_names_setAll (h : entries.names.Nodup) (others : Entries α) : (setAll entries others).names.Nodup := by
  induction others generalizing entries with
  | nil => exact h
  | cons entry others ih => exact ih (nodup_names_set h entry.1 entry.2)

/-- The last value that is set under a name is found there. -/
theorem get?_setAll (entries others : Entries α) (name : String) :
    get? (setAll entries others) name = (get? others.reverse name).or (get? entries name) := by
  induction others generalizing entries with
  | nil => rfl
  | cons entry others ih =>
      rw [setAll_cons, ih, List.reverse_cons, get?_append, Option.or_assoc]
      congr 1
      by_cases h : entry.1 = name
      · rw [← h, get?_set_self]
        simp [get?]
      · rw [get?_set_of_ne h]
        simp [get?, h]

/-- Behind the names that are there come the new ones, in the order in which they are first set. -/
theorem names_setAll (entries others : Entries α) :
    names (setAll entries others) = names entries ++ (others.names.removeAll entries.names).eraseDups := by
  induction others generalizing entries with
  | nil => simp [names, List.removeAll]
  | cons entry others ih =>
      have hcons : names (entry :: others) = entry.1 :: names others := rfl
      rw [setAll_cons, ih, names_set, hcons]
      by_cases h : entry.1 ∈ names entries
      · simp [List.removeAll, h]
      · simp [List.removeAll, h, List.eraseDups_cons, List.filter_filter, beq_eq_decide, Bool.and_comm]

end Entries
end MarkdownNodes
