import MarkdownNodes.Proofs.Token.Place

/-! Task items. An item is reached in a list, or as a token that stands among blocks by itself; the tasks of a
forest are the items with the mark of a task that are reached in it, in document order. -/

namespace MarkdownNodes.Token

/-- The tokens one level down, with an item of a list as a token of its own. -/
def branches : Token → List Token
  | .list _ _ _ _ items => items.map .listItem
  | t => t.inner

/-- The item itself, if the token is one that is a task. -/
def ownTask : Token → List (Item Token)
  | .listItem item => if item.task then [item] else []
  | _ => []

theorem mem_ownTask {item other : Item Token} : other ∈ (listItem item).ownTask ↔ other = item ∧ item.task = true := by
  rw [ownTask]
  cases item.task <;> simp

theorem sizeOf_lt_of_mem_branches {t u : Token} (h : u ∈ t.branches) : sizeOf u < sizeOf t := by
  cases t with
  | list raw ordered start loose items =>
      obtain ⟨item, hitem, rfl⟩ := List.mem_map.mp h
      have hsize := List.sizeOf_lt_of_mem hitem
      simp only [listItem.sizeOf_spec, list.sizeOf_spec]
      omega
  | _ => exact sizeOf_lt_of_mem_inner h

/-- Induction over tokens: the tokens one level down, and the items of a list, come first. -/
theorem induct_branches {P : Token → Prop} (step : ∀ t, (∀ u ∈ t.branches, P u) → P t) (t : Token) : P t :=
  step t fun u _ => induct_branches step u
termination_by t
decreasing_by exact sizeOf_lt_of_mem_branches ‹_›

/-- The task items that are reached from a token that stands in a place, in document order. -/
def tasks (place : Place) (t : Token) : List (Item Token) :=
  if place.admits t then t.ownTask ++ t.branches.attach.flatMap fun u => tasks t.innerPlace u.val else []
termination_by t
decreasing_by exact sizeOf_lt_of_mem_branches u.property

/-- The task items that are reached in a forest that stands in a place. -/
def tasksOf (place : Place) (ts : List Token) : List (Item Token) := ts.flatMap (tasks place)

theorem tasks_eq (place : Place) (t : Token) :
    t.tasks place = if place.admits t then t.ownTask ++ tasksOf t.innerPlace t.branches else [] := by
  rw [tasks, tasksOf, flatMap_attach]

theorem misfitsOf_branches (t : Token) : misfitsOf t.innerPlace t.branches = misfitsOf t.innerPlace t.inner := by
  cases t with
  | list raw ordered start loose items =>
      have hitem : ∀ item : Item Token, (listItem item).misfits .block = misfitsOf .block item.tokens := by
        intro item
        rw [misfits_of_admits rfl]
        simp [inner, children, Token.items, header, rows, innerPlace]
      simp only [misfitsOf, branches, List.flatMap_map, hitem, innerPlace, inner, children, Token.items, header, rows]
      simp [List.flatMap_assoc]
  | _ => rfl

/-- An item among the tasks that are reached is a task, and brings no misfits but those met on the whole way. -/
theorem task_and_misfits_of_mem_tasks {place : Place} {t : Token} {item : Item Token} (h : item ∈ t.tasks place) :
    item.task = true ∧ (listItem item).misfits .block ⊆ t.misfits place := by
  induction t using induct_branches generalizing place with
  | step t ih =>
      rw [tasks_eq] at h
      split at h
      case isFalse => exact absurd h List.not_mem_nil
      case isTrue hadmits =>
        rcases List.mem_append.mp h with hown | hbranch
        · cases t with
          | listItem item' =>
              obtain ⟨rfl, htask⟩ := mem_ownTask.mp hown
              cases place with
              | block => exact ⟨htask, List.Subset.refl _⟩
              | inline => cases hadmits
          | _ => exact absurd hown List.not_mem_nil
        · obtain ⟨u, hu, hitem⟩ := List.mem_flatMap.mp hbranch
          obtain ⟨htask, hmisfits⟩ := ih u hu hitem
          rw [misfits_of_admits hadmits, ← misfitsOf_branches]
          exact ⟨htask, fun m hm => List.mem_flatMap.mpr ⟨u, hu, hmisfits hm⟩⟩

theorem task_and_misfits_of_mem_tasksOf {place : Place} {ts : List Token} {item : Item Token}
    (h : item ∈ tasksOf place ts) : item.task = true ∧ (listItem item).misfits .block ⊆ misfitsOf place ts := by
  obtain ⟨t, ht, hitem⟩ := List.mem_flatMap.mp h
  obtain ⟨htask, hmisfits⟩ := task_and_misfits_of_mem_tasks hitem
  exact ⟨htask, fun m hm => List.mem_flatMap.mpr ⟨t, ht, hmisfits hm⟩⟩

end MarkdownNodes.Token
