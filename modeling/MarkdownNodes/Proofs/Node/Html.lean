import MarkdownNodes.Node.Html
import MarkdownNodes.Proofs.Node.Walk

/-! Nodes inside written nodes. The HTML of a node stands in that of the nodes around it, unless one of
these is an element that stays empty; a heading never is. -/

namespace MarkdownNodes.Node

theorem lowerChar_of_isDigit {c : Char} (h : c.isDigit = true) : lowerChar c = c := by
  have hkelvin : c ≠ '\u212a' := by
    rintro rfl
    exact absurd h (by decide)
  have hcapital : ¬ (c.val ≥ 'A'.val ∧ c.val ≤ 'Z'.val) := by
    simp only [Char.isDigit, Bool.and_eq_true, decide_eq_true_eq, UInt32.le_iff_toNat_le] at h ⊢
    have hnine : '9'.val.toNat = 57 := rfl
    have hA : 'A'.val.toNat = 65 := rfl
    omega
  rw [lowerChar, if_neg hkelvin]
  exact dif_neg hcapital

/-- No heading is an element that stays empty, at whatever depth. -/
theorem staysEmpty_heading (depth : Nat) : staysEmpty ("h" ++ toString depth) = false := by
  rw [Bool.eq_false_iff]
  intro h
  -- Among the tags that stay empty only `hr` begins with an h.
  obtain ⟨c, hdigits, hlower⟩ : ∃ c, Nat.toDigits 10 depth = [c] ∧ lowerChar c = 'r' := by
    simpa [staysEmpty, emptyTags, lowerChar] using h
  have hdigit : c.isDigit = true :=
    Nat.isDigit_of_mem_toDigits (by decide) (by decide) (hdigits ▸ List.mem_singleton_self c)
  rw [lowerChar_of_isDigit hdigit] at hlower
  rw [hlower] at hdigit
  exact absurd hdigit (by decide)

/-- Nothing inside the node is lost when it is written. -/
def LosesNothing (n : Node) : Prop := ∀ tag, n.kind = .element tag → staysEmpty tag = true → n.inner = []

theorem htmlCharsOf_eq_flatten (ns : List Node) : htmlCharsOf ns = (ns.map htmlChars).flatten := by
  induction ns with
  | nil => rw [htmlCharsOf, List.map_nil, List.flatten_nil]
  | cons n ns ih => rw [htmlCharsOf, ih, List.map_cons, List.flatten_cons]

theorem htmlChars_infix_of_mem {n : Node} {ns : List Node} (h : n ∈ ns) : htmlChars n <:+: htmlCharsOf ns := by
  rw [htmlCharsOf_eq_flatten]
  exact List.infix_of_mem_flatten (List.mem_map_of_mem h)

theorem contentHtmlChars_infix {n : Node} (h : n.LosesNothing) (hinner : n.inner ≠ []) :
    htmlCharsOf n.inner <:+: htmlChars n := by
  rcases n with ⟨kind, attrs, _ | _ | _ | ns⟩
  case nodes =>
    rcases kind with tag | _
    · have htag : staysEmpty tag ≠ true := fun hempty => hinner (h tag rfl hempty)
      rw [htmlChars, if_neg htag]
      exact List.infix_append_of_infix_right (List.infix_append_left)
    · rw [htmlChars]
      exact List.infix_rfl
  all_goals exact absurd rfl hinner

theorem htmlChars_infix_of_mem_all {n m : Node} (h : ∀ k ∈ n.all, k.LosesNothing) (hm : m ∈ n.all) :
    htmlChars m <:+: htmlChars n := by
  induction n using induct with
  | step n ih =>
      rw [all_eq] at h hm
      rcases List.mem_cons.mp hm with rfl | hm
      · exact List.infix_rfl
      · obtain ⟨k, hk, hm⟩ := mem_allOf.mp hm
        have hk' : ∀ l ∈ k.all, l.LosesNothing := fun l hl =>
          h l (List.mem_cons_of_mem n (mem_allOf.mpr ⟨k, hk, hl⟩))
        have hn := contentHtmlChars_infix (h n List.mem_cons_self) (List.ne_nil_of_mem hk)
        exact ((ih k hk hk' hm).trans (htmlChars_infix_of_mem hk)).trans hn

/-- If nothing is lost, every node at every depth stands in what is written. -/
theorem htmlChars_infix_of_mem_allOf {ns : List Node} {m : Node} (h : ∀ k ∈ allOf ns, k.LosesNothing)
    (hm : m ∈ allOf ns) : htmlChars m <:+: htmlCharsOf ns := by
  obtain ⟨n, hn, hm⟩ := mem_allOf.mp hm
  have hall : ∀ k ∈ n.all, k.LosesNothing := fun k hk => h k (mem_allOf.mpr ⟨n, hn, hk⟩)
  exact (htmlChars_infix_of_mem_all hall hm).trans (htmlChars_infix_of_mem hn)

/-! ### Elements that stay empty -/

/-- The node is empty if it is of an element that stays empty. -/
def KeepsEmpty (n : Node) : Prop := ∀ tag, n.kind = .element tag → staysEmpty tag = true → n.content = .empty

theorem KeepsEmpty.losesNothing {n : Node} (h : n.KeepsEmpty) : n.LosesNothing := by
  intro tag hkind hempty
  rw [inner, h tag hkind hempty]

theorem keepsEmpty_of_content {n : Node} (h : n.content = .empty) : n.KeepsEmpty := fun _ _ _ => h

theorem keepsEmpty_of_tag {n : Node} {tag : String} (hkind : n.kind = .element tag)
    (h : staysEmpty tag = false) : n.KeepsEmpty := by
  intro other hother hempty
  cases hkind.symm.trans hother
  exact absurd (h.symm.trans hempty) Bool.false_ne_true

theorem keepsEmpty_fragment (ns : List Node) : (fragment ns).KeepsEmpty := fun _ hkind => nomatch hkind

end MarkdownNodes.Node
