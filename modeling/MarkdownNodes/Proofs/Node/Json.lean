import MarkdownNodes.Node.Json
import MarkdownNodes.Proofs.Json.SameValue
import MarkdownNodes.Proofs.Node.Changes

/-! Nodes as JSON values. The value of a node tells all of it but the order of its attributes, and the fields of an
object have no order that counts either: nodes in which no attribute comes twice are the same just if their values
are. -/

namespace MarkdownNodes

open Json

/-! ### Values of parts -/

theorem AttrValue.sameValue_toJson_iff {v w : AttrValue} : v.toJson.SameValue w.toJson ↔ v = w := by
  refine ⟨fun h => ?_, fun h => h ▸ .refl _⟩
  have hshape := h.shape_eq
  cases v <;> cases w <;> simp_all [AttrValue.toJson, shape]

namespace Node

/-- The type that an object begins with is the same in an object that is the same. -/
theorem type_eq_of_sameValue {s s' : String} {fields fields' : List (String × Json)}
    (h : (obj (("type", .str s) :: fields)).SameValue (obj (("type", .str s') :: fields'))) : s = s' := by
  have hrel : Option.Rel SameValue (some (.str s)) (some (.str s')) :=
    h.rel_field? "type" (rel_sameValue_refl (some (.str s)))
  cases hrel with
  | some hsame => exact sameValue_str_iff.mp hsame

/-- Objects of a type and a further field are the same if both are. -/
theorem sameValue_typed_iff {s s' key : String} (hkey : "type" ≠ key) {v w : Json} :
    (obj [("type", .str s), (key, v)]).SameValue (obj [("type", .str s'), (key, w)]) ↔ s = s' ∧ v.SameValue w := by
  have hnames : (Entries.names [("type", Json.str s), (key, v)]).Nodup := by simp [Entries.names, hkey]
  rw [sameValue_obj_iff hnames]
  · simp [sameValue_str_iff]
  · rfl

theorem Kind.sameValue_toJson_iff {kind kind' : Kind} : kind.toJson.SameValue kind'.toJson ↔ kind = kind' := by
  refine ⟨fun h => ?_, fun h => h ▸ .refl _⟩
  rcases kind with tag | _ <;> rcases kind' with tag' | _
  · obtain ⟨_, htag⟩ := (sameValue_typed_iff (by decide : "type" ≠ "tag")).mp h
    rw [sameValue_str_iff.mp htag]
  · exact absurd (type_eq_of_sameValue h) (by decide)
  · exact absurd (type_eq_of_sameValue h) (by decide)
  · rfl

/-- Attributes as a JSON value. -/
def attrsToJson (attrs : Entries AttrValue) : Json := .obj (attrs.map fun entry => (entry.1, entry.2.toJson))

/-- Attributes, each of which comes once, are the same but for their order if their values are the same. -/
theorem sameValue_attrsToJson_iff {attrs attrs' : Entries AttrValue} (h : attrs.names.Nodup)
    (h' : attrs'.names.Nodup) : (attrsToJson attrs).SameValue (attrsToJson attrs') ↔ attrs.Perm attrs' := by
  constructor
  · intro hsame
    refine (Entries.perm_iff_get?_eq h h').mpr fun name => ?_
    have hrel : Option.Rel SameValue ((attrs.get? name).map AttrValue.toJson)
        ((attrs'.get? name).map AttrValue.toJson) := by
      rw [← Entries.get?_map, ← Entries.get?_map]
      exact hsame.rel_field? name (rel_sameValue_refl _)
    generalize attrs.get? name = found at hrel ⊢
    generalize attrs'.get? name = found' at hrel ⊢
    rcases found with _ | value <;> rcases found' with _ | value'
    · rfl
    · cases hrel
    · cases hrel
    · cases hrel with
      | some hvalue => rw [AttrValue.sameValue_toJson_iff.mp hvalue]
  · intro hperm
    refine .order ?_ (hperm.map _)
    rw [List.map_map]
    exact h

theorem sameAttrs_iff_perm {attrs attrs' : Entries AttrValue} (h : attrs.names.Nodup) :
    sameAttrs attrs attrs' = true ↔ attrs.Perm attrs' := by
  rw [sameAttrs, Bool.and_eq_true, beq_iff_eq, List.all_eq_true]
  constructor
  · rintro ⟨hlength, hall⟩
    have hsubset : attrs ⊆ attrs' := fun entry hentry => Entries.mem_of_get? (by simpa using hall entry hentry)
    exact (List.subperm_of_subset (.of_map _ h) hsubset).perm_of_length_le hlength.ge
  · intro hperm
    refine ⟨hperm.length_eq, fun entry hentry => ?_⟩
    have hfound : attrs'.get? entry.1 = some entry.2 := by
      rw [← Entries.get?_eq_of_perm h hperm]
      exact (Entries.get?_eq_some_iff h).mpr hentry
    simpa using hfound

theorem toJsonList_eq_map (ns : List Node) : toJsonList ns = ns.map toJson := by
  induction ns with
  | nil => rfl
  | cons n ns ih => rw [toJsonList, ih, List.map_cons]

theorem sameList_iff {ns ns' : List Node} :
    sameList ns ns' = true ↔ List.Forall₂ (fun n n' => n.same n' = true) ns ns' := by
  induction ns generalizing ns' with
  | nil => cases ns' <;> simp [sameList]
  | cons n ns ih => cases ns' <;> simp [sameList, ih]

theorem sameValue_toJsonList_iff {ns ns' : List Node}
    (h : ∀ n ∈ ns, ∀ n' ∈ ns', (n.toJson.SameValue n'.toJson ↔ n.same n' = true)) :
    (arr (toJsonList ns)).SameValue (arr (toJsonList ns')) ↔ sameList ns ns' = true := by
  have hpair : ∀ {n n' : Node}, (n, n') ∈ ns.zip ns' → (n.toJson.SameValue n'.toJson ↔ n.same n' = true) := by
    intro n n' hmem
    obtain ⟨hn, hn'⟩ := List.of_mem_zip hmem
    exact h n hn n' hn'
  rw [sameValue_arr_iff, sameList_iff, toJsonList_eq_map, toJsonList_eq_map, List.forall₂_map_left_iff,
    List.forall₂_map_right_iff, List.forall₂_iff_zip, List.forall₂_iff_zip]
  exact and_congr_right fun _ => ⟨fun hall _ _ hmem => (hpair hmem).mp (hall hmem),
    fun hall _ _ hmem => (hpair hmem).mpr (hall hmem)⟩

/-- If this holds of the nodes inside, content is the same if its value is. -/
theorem sameValue_contentToJson_iff {n n' : Node}
    (h : ∀ m ∈ n.inner, ∀ m' ∈ n'.inner, (m.toJson.SameValue m'.toJson ↔ m.same m' = true)) :
    (contentToJson n.content).SameValue (contentToJson n'.content) ↔ sameContent n.content n'.content = true := by
  rcases n with ⟨kind, attrs, content⟩
  rcases n' with ⟨kind', attrs', content'⟩
  cases content <;> cases content' <;> simp only [contentToJson, sameContent]
  case empty.empty => exact iff_of_true (.refl _) trivial
  case text.text => rw [sameValue_typed_iff (by decide), sameValue_str_iff, beq_iff_eq, and_iff_right rfl]
  case html.html => rw [sameValue_typed_iff (by decide), sameValue_str_iff, beq_iff_eq, and_iff_right rfl]
  case nodes.nodes =>
    rw [sameValue_typed_iff (by decide), and_iff_right rfl]
    exact sameValue_toJsonList_iff h
  all_goals exact iff_of_false (fun h => absurd (type_eq_of_sameValue h) (by decide)) (by decide)

/-! ### Values of nodes -/

theorem toJson_eq (n : Node) : n.toJson = .obj [("kind", n.kind.toJson), ("attrs", attrsToJson n.attrs),
    ("children", contentToJson n.content)] := by
  rcases n with ⟨kind, attrs, content⟩
  rw [toJson]
  rfl

/-- The values of nodes are the same if those of kind, attributes and content are. -/
theorem sameValue_toJson_iff_parts {n n' : Node} : n.toJson.SameValue n'.toJson ↔
    n.kind.toJson.SameValue n'.kind.toJson ∧ (attrsToJson n.attrs).SameValue (attrsToJson n'.attrs) ∧
      (contentToJson n.content).SameValue (contentToJson n'.content) := by
  have hnames : ∀ u v w : Json, (Entries.names [("kind", u), ("attrs", v), ("children", w)]).Nodup :=
    fun u v w => by simp [Entries.names]
  rw [toJson_eq, toJson_eq, sameValue_obj_iff (hnames _ _ _)]
  · simp
  · rfl

theorem same_iff_parts {n n' : Node} : n.same n' = true ↔
    n.kind = n'.kind ∧ sameAttrs n.attrs n'.attrs = true ∧ sameContent n.content n'.content = true := by
  rcases n with ⟨kind, attrs, content⟩
  rcases n' with ⟨kind', attrs', content'⟩
  simp [same, and_assoc]

/-- Nodes in which no attribute comes twice, at any depth, are the same just if their values are. -/
theorem sameValue_toJson_iff {n n' : Node} (h : n.DistinctAttrs) (h' : n'.DistinctAttrs) :
    n.toJson.SameValue n'.toJson ↔ n.same n' = true := by
  induction n using induct generalizing n' with
  | step n ih =>
      obtain ⟨hattrs, hinner⟩ := distinctAttrs_iff.mp h
      obtain ⟨hattrs', hinner'⟩ := distinctAttrs_iff.mp h'
      have hcontent : (contentToJson n.content).SameValue (contentToJson n'.content) ↔
          sameContent n.content n'.content = true :=
        sameValue_contentToJson_iff fun m hm m' hm' => ih m hm (hinner m hm) (hinner' m' hm')
      rw [sameValue_toJson_iff_parts, same_iff_parts, Kind.sameValue_toJson_iff,
        sameValue_attrsToJson_iff hattrs hattrs', sameAttrs_iff_perm hattrs, hcontent]

/-- Two nodes that can be made are the same, whatever the order of their attributes, just if their values are the
same, whatever the order of fields. -/
theorem sameValue_toJson_iff_same_of_built {n n' : Node} (h : n.Built) (h' : n'.Built) :
    n.toJson.SameValue n'.toJson ↔ n.same n' = true :=
  sameValue_toJson_iff h.distinctAttrs h'.distinctAttrs

/-- A numbered list with one item. -/
def numbered (start : AttrValue) : Node :=
  (element "ol").changed [.set "start" start, .set "reversed" (.bool true), .hold [span "a"]]

/-- The list with its number set last, and its item added. -/
def numberedLast (start : AttrValue) : Node :=
  (element "ol").changed [.hold [], .set "reversed" (.bool true), .push (span "a"), .set "start" start]

theorem built_numbered (start : AttrValue) : (numbered start).Built :=
  (Built.element "ol").changed (by simp [Change.inner, Built.span])

theorem built_numberedLast (start : AttrValue) : (numberedLast start).Built :=
  (Built.element "ol").changed (by simp [Change.inner, Built.span])

/-- Two lists whose attributes are set in a different order, and two that differ in the type of a value. -/
theorem sameValue_toJson_iff_same_of_numbered :
    (numbered (.int 3)).Built ∧ (numberedLast (.int 3)).Built ∧ (numberedLast (.str "3")).Built ∧
      (numbered (.int 3)).toJson.SameValue (numberedLast (.int 3)).toJson ∧
      ¬ (numbered (.int 3)).toJson.SameValue (numberedLast (.str "3")).toJson := by
  have hsame := sameValue_toJson_iff_same_of_built (built_numbered (.int 3)) (built_numberedLast (.int 3))
  have hother := sameValue_toJson_iff_same_of_built (built_numbered (.int 3)) (built_numberedLast (.str "3"))
  exact ⟨built_numbered _, built_numberedLast _, built_numberedLast _, hsame.mpr (by decide),
    mt hother.mp (by decide)⟩

end Node
end MarkdownNodes
