import MarkdownNodes.Proofs.Json.Complete
import MarkdownNodes.Proofs.Token.FieldOrder
import MarkdownNodes.Token.OfText

/-! Token lists in texts and in values. A text is read from left to right and judged element by element; a
value is judged as a whole. Of a text that the grammar allows the reader makes what it makes of the value: the
same list, or the same complaint. -/

namespace MarkdownNodes

open Json

namespace Token

/-- What an element of a token list is found to be. -/
def judge (v : Json) : Except ReadError Token :=
  match ofJson? v with
  | some t => .ok t
  | none => .error .badToken

theorem mapM_judge (vs : List Json) : vs.mapM judge = listOfJson (.arr vs) := by
  induction vs with
  | nil => rfl
  | cons v vs ih =>
      rw [List.mapM_cons, ih, judge, listOfJson, listOfJson, listOfJson?]
      cases ofJson? v with
      | none => rfl
      | some t => cases listOfJson? vs <;> rfl

theorem takes_judge {v : Json} (h : ReadsValue (roomOfText - 1) v) : Takes ElementText element judge v := by
  intro cs htext rest hrest
  obtain ⟨c, tail, space, htail, hc, hspace, hread⟩ := takes_element h cs htext rest hrest
  refine ⟨c, tail, space, htail, hc, hspace, ?_⟩
  rw [element, hread, judge]
  cases hv : ofJson? v <;> simp [hv, Functor.map, Except.map, bind, Except.bind]

theorem listOfChars_of_scalar {v : Json} {cs after : List Char} (h : ValueText v cs) (hdepth : v.depth = 0)
    (hafter : IsSpace after) {text : List Char} (hskip : skipSpace text = cs ++ after) :
    listOfChars text = .error (.notList v.shape) := by
  have hread := readsValue_of_depth_eq_zero hdepth 0 cs h after (.of_space hafter)
  obtain ⟨c, ds, rfl, harray, hobject⟩ := head_of_depth_eq_zero h hdepth
  rw [List.cons_append] at hskip hread
  simp [listOfChars, hskip, harray, hobject, hread, bind, Except.bind]

theorem listOfChars_of_object {fields : List (String × Json)} {cs after text : List Char}
    (h : ValueText (.obj fields) cs) (hskip : skipSpace text = cs ++ after) :
    listOfChars text = .error (.notList .obj) := by
  cases h with
  | number h => cases h.depth_eq_zero
  | emptyObject | object => simp [listOfChars, hskip]

theorem listOfChars_of_array {vs : List Json} {cs after text : List Char} (h : ValueText (.arr vs) cs)
    (hdepth : (Json.arr vs).depth ≤ roomOfText) (hafter : IsSpace after) (hskip : skipSpace text = cs ++ after) :
    listOfChars text = listOfJson (.arr vs) := by
  have hlist : ∀ inside, cs = '[' :: (inside ++ [']']) →
      members ']' element (inside ++ ']' :: after) = (·, after) <$> listOfJson (.arr vs) →
      listOfChars text = listOfJson (.arr vs) := by
    rintro inside rfl hmembers
    rw [List.cons_append, List.append_assoc] at hskip
    simp only [listOfChars, hskip, List.singleton_append, hmembers]
    cases listOfJson (.arr vs) with
    | error e => rfl
    | ok ts => simp [atEnd_of_space hafter, Functor.map, Except.map, bind, Except.bind]
  cases h with
  | number h => cases h.depth_eq_zero
  | emptyArray h => exact hlist _ rfl (members_nil (by decide) h after)
  | array h =>
      have hread : ∀ v ∈ vs, Takes ElementText element judge v := fun v hv =>
        takes_judge (readsValue _ v (Nat.le_trans (depth_le_depthOf hv) (Nat.le_of_succ_le_succ hdepth)))
      have hclose : ']' ∈ [']', '\x7d'] := by decide
      have hmembers := members_append hclose h hread after
      rw [mapM_judge] at hmembers
      exact hlist _ rfl hmembers

/-- Where the grammar allows the text, and not too many containers are open at a time, its tokens are those of
the value. -/
theorem listOfChars_of_text {v : Json} {text : List Char} (h : ElementText v text) (hdepth : v.depth ≤ roomOfText) :
    listOfChars text = listOfJson v := by
  cases h with
  | @padded before after cs _ hbefore htext hafter =>
      have hskip : skipSpace (before ++ (cs ++ after)) = cs ++ after := by
        obtain ⟨c, ds, rfl, hc⟩ := head_valueText htext
        rw [skipSpace_append hbefore]
        exact skipSpace_of_head (isWhitespace_eq_false_of_not_mem hc) _
      cases v with
      | arr vs => exact listOfChars_of_array htext hdepth hafter hskip
      | obj fields => exact listOfChars_of_object htext hskip
      | _ => exact listOfChars_of_scalar htext rfl hafter hskip

/-- The two ways to read a token list agree. For a text that the grammar allows, with at most 127 containers open
at a time, reading the text and reading its value, in whatever order the fields of objects are kept, give the
same list or fail with the same error. -/
theorem listOfText_eq_listOfJson {text : String} {v w : Json} (htext : ElementText v text.toList)
    (hdepth : v.depth ≤ 127) (hsame : v.SameValue w) : listOfText text = listOfJson w :=
  (listOfChars_of_text htext hdepth).trans (listOfJson_eq_of_sameValue hsame)

/-- A break, its source with an escape and before its type. -/
def escapedBreak : String := " [\x7b\"raw\":\"-\\u002d-\",\"type\" : 1\x7d ]\n"

theorem elementText_escapedBreak :
    ElementText (.arr [.obj [("raw", .str "---"), ("type", .int 1)]]) escapedBreak.toList := by
  have hspace : IsSpace [' '] := by simp [IsSpace]
  have hline : IsSpace ['\n'] := by simp [IsSpace]
  have hplain : ∀ {cs ds}, CharsText cs ds → CharsText ('-' :: cs) ('-' :: ds) := fun h =>
    .plain (by decide) (by decide) (by decide) h
  have hunit : UnitText '-'.toNat ['0', '0', '2', 'd'] := by
    have hzero : HexDigit 0 '0' := by decide
    have htwo : HexDigit 2 '2' := by decide
    have hthirteen : HexDigit 13 'd' := by decide
    exact .digits hzero hzero htwo hthirteen rfl
  have hchars : CharsText ['-', '-', '-'] ['-', '\\', 'u', '0', '0', '2', 'd', '-'] :=
    hplain (.unit (by decide) hunit (hplain .nil))
  have hraw : FieldText ("raw", .str "---") ([] ++ '"' :: (['r', 'a', 'w'] ++ '"' :: ([] ++ ':' ::
      ([] ++ ('"' :: (['-', '\\', 'u', '0', '0', '2', 'd', '-'] ++ ['"']) ++ []))))) :=
    .colon isSpace_nil (charsText_self (by simp)) isSpace_nil (.padded isSpace_nil (.string hchars) isSpace_nil)
  have hone : ValueText (.int 1) ['1'] := .number (.int (.natural (by decide : 1 < 0x10000000000000000)))
  have htype : FieldText ("type", .int 1) ([] ++ '"' :: (['t', 'y', 'p', 'e'] ++ '"' :: ([' '] ++ ':' ::
      ([' '] ++ (['1'] ++ []))))) :=
    .colon isSpace_nil (charsText_self (by simp)) hspace (.padded hspace hone isSpace_nil)
  have hobject := ValueText.object (.more hraw (.one htype))
  exact .padded hspace (.array (.one (.padded isSpace_nil hobject hspace))) hline

theorem listOfText_eq_listOfJson_escapedBreak :
    Json.SameValue (.arr [.obj [("raw", .str "---"), ("type", .int 1)]])
        (.arr [.obj [("type", .int 1), ("raw", .str "---")]]) ∧
      listOfText escapedBreak = listOfJson (.arr [.obj [("type", .int 1), ("raw", .str "---")]]) ∧
      listOfText escapedBreak = .ok [.hr "---"] := by
  have hsame : Json.SameValue (.arr [.obj [("raw", .str "---"), ("type", .int 1)]])
      (.arr [.obj [("type", .int 1), ("raw", .str "---")]]) :=
    .elem [] [] (.order (by decide) (.swap _ _ _))
  have hread := listOfText_eq_listOfJson elementText_escapedBreak (by decide) hsame
  exact ⟨hsame, hread, hread.trans rfl⟩

end Token
end MarkdownNodes
