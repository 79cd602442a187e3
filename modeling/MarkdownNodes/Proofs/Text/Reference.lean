import MarkdownNodes.Proofs.Text.Entity

/-! Soft escaping. A reference names an entity or gives the number of a character, and what soft escaping
looks for behind an ampersand is just whether one begins there. Text is safe if every ampersand in it
begins a reference; soft escaping makes any text safe and changes nothing else, so that it leaves safe
text as it is, its own output among it. -/

namespace MarkdownNodes.Text

/-- A reference: to an entity by name, or to a character by its number in decimal or hexadecimal. -/
inductive Reference : List Char → Prop
  | name {run : List Char} :
      run ≠ [] → (∀ c ∈ run, isWord c = true) → Reference ('&' :: run ++ [';'])
  | decimal {run : List Char} :
      run ≠ [] → run.length ≤ 7 → (∀ c ∈ run, isDecimalDigit c = true) → Reference ('&' :: '#' :: run ++ [';'])
  | hexadecimal {mark : Char} {run : List Char} :
      mark = 'x' ∨ mark = 'X' → run ≠ [] → run.length ≤ 6 → (∀ c ∈ run, isHexDigit c = true) →
      Reference ('&' :: '#' :: mark :: run ++ [';'])

/-- None of the other special characters occurs, and every ampersand begins a reference. -/
def Safe (cs : List Char) : Prop := Guarded Reference cs

/-! ### The characters of a reference -/

/-- The special characters, and those around the name or number of a reference. -/
def marks : List Char := ['<', '>', '"', '\'', '&', '#', ';']

/-- There are no marks in a class of characters. -/
def Unmarked (p : Char → Bool) : Prop := ∀ c ∈ marks, p c = false

theorem unmarked_of_all {p : Char → Bool} (h : (marks.all fun c => !p c) = true) : Unmarked p := by
  intro c hc
  simpa using List.all_eq_true.mp h c hc

theorem unmarked_isWord : Unmarked isWord := unmarked_of_all (by decide +kernel)

theorem unmarked_isDecimalDigit : Unmarked isDecimalDigit := unmarked_of_all (by decide +kernel)

theorem unmarked_isHexDigit : Unmarked isHexDigit := unmarked_of_all (by decide +kernel)

theorem Unmarked.plain {p : Char → Bool} (hp : Unmarked p) {run : List Char} (hrun : ∀ c ∈ run, p c = true) :
    ∀ c ∈ run, c ∉ ['<', '>', '"', '\'', '&'] := by
  intro c hc hspecial
  have hmark : c ∈ marks := List.mem_append_left ['#', ';'] hspecial
  exact Bool.false_ne_true ((hp c hmark).symm.trans (hrun c hc))

/-- A reference has no special character but the ampersand it begins with. -/
theorem Reference.exists_plain {reference : List Char} (h : Reference reference) :
    ∃ tail, reference = '&' :: tail ∧ ∀ c ∈ tail, c ∉ ['<', '>', '"', '\'', '&'] := by
  have hend : ∀ c ∈ [';'], c ∉ ['<', '>', '"', '\'', '&'] := by simp
  have hnumber : '#' ∉ ['<', '>', '"', '\'', '&'] := by decide
  cases h with
  | @name run _ hrun =>
      refine ⟨run ++ [';'], rfl, List.forall_mem_append.mpr ⟨?_, hend⟩⟩
      exact unmarked_isWord.plain hrun
  | @decimal run _ _ hrun =>
      refine ⟨'#' :: run ++ [';'], rfl, List.forall_mem_append.mpr ⟨List.forall_mem_cons.mpr ⟨hnumber, ?_⟩, hend⟩⟩
      exact unmarked_isDecimalDigit.plain hrun
  | @hexadecimal mark run hmark _ _ hrun =>
      have hx : mark ∉ ['<', '>', '"', '\'', '&'] := by rcases hmark with rfl | rfl <;> decide
      refine ⟨'#' :: mark :: run ++ [';'], rfl, List.forall_mem_append.mpr
        ⟨List.forall_mem_cons.mpr ⟨hnumber, List.forall_mem_cons.mpr ⟨hx, ?_⟩⟩, hend⟩⟩
      exact unmarked_isHexDigit.plain hrun

/-! ### What soft escaping looks for -/

section ClosedRun

variable {p : Char → Bool} {most : Nat}

/-- A run and the semicolon behind it. -/
theorem closedRun_append (hp : Unmarked p) {run : List Char} (hne : run ≠ []) (hmost : run.length ≤ most)
    (hrun : ∀ c ∈ run, p c = true) (more : List Char) : closedRun p most (run ++ ';' :: more) = true := by
  have hend : ¬ p ';' = true := by simp [hp ';' (by decide)]
  have htake : (run ++ ';' :: more).takeWhile p = run := by
    rw [List.takeWhile_append_of_pos hrun, List.takeWhile_cons_of_neg hend, List.append_nil]
  have hdrop : (run ++ ';' :: more).dropWhile p = ';' :: more := by
    rw [List.dropWhile_append_of_pos hrun, List.dropWhile_cons_of_neg hend]
  simp [closedRun, htake, hdrop, hne, hmost]

theorem exists_of_closedRun {cs : List Char} (h : closedRun p most cs = true) :
    ∃ run more, cs = run ++ ';' :: more ∧ run ≠ [] ∧ run.length ≤ most ∧ ∀ c ∈ run, p c = true := by
  simp only [closedRun, Bool.and_eq_true, Bool.not_eq_true', List.isEmpty_eq_false_iff, decide_eq_true_eq,
    beq_iff_eq] at h
  obtain ⟨⟨hne, hmost⟩, hhead⟩ := h
  obtain ⟨more, hmore⟩ : ∃ more, cs.dropWhile p = ';' :: more := List.head?_eq_some_iff.mp hhead
  refine ⟨cs.takeWhile p, more, ?_, hne, hmost, List.all_eq_true.mp List.all_takeWhile⟩
  rw [← hmore, List.takeWhile_append_dropWhile]

end ClosedRun

theorem exists_reference_of_completesReference {rest : List Char} (h : completesReference rest = true) :
    ∃ reference, Reference reference ∧ reference <+: '&' :: rest := by
  unfold completesReference at h
  split at h
  · obtain ⟨run, more, rfl, hne, hmost, hrun⟩ := exists_of_closedRun h
    exact ⟨_, .hexadecimal (.inl rfl) hne hmost hrun, more, by simp⟩
  · obtain ⟨run, more, rfl, hne, hmost, hrun⟩ := exists_of_closedRun h
    exact ⟨_, .hexadecimal (.inr rfl) hne hmost hrun, more, by simp⟩
  · obtain ⟨run, more, rfl, hne, hmost, hrun⟩ := exists_of_closedRun h
    exact ⟨_, .decimal hne hmost hrun, more, by simp⟩
  · obtain ⟨run, more, rfl, hne, _, hrun⟩ := exists_of_closedRun h
    exact ⟨_, .name hne hrun, more, by simp⟩

theorem completesReference_of_reference {rest reference : List Char} (h : Reference reference)
    (hbegins : reference <+: '&' :: rest) : completesReference rest = true := by
  obtain ⟨more, hmore⟩ := hbegins
  cases h with
  | @name run hne hrun =>
      obtain rfl : rest = run ++ ';' :: more := by simpa using hmore.symm
      obtain ⟨c, run, rfl⟩ := List.exists_cons_of_ne_nil hne
      have hnumber : c ≠ '#' := by
        rintro rfl
        exact absurd (hrun '#' List.mem_cons_self) (by simp [unmarked_isWord '#' (by decide)])
      rw [List.cons_append, completesReference]
      · exact closedRun_append unmarked_isWord hne (by simp) hrun more
      all_goals simp [hnumber]
  | @decimal run hne hmost hrun =>
      obtain rfl : rest = '#' :: run ++ ';' :: more := by simpa using hmore.symm
      obtain ⟨c, run, rfl⟩ := List.exists_cons_of_ne_nil hne
      have hx : c ≠ 'x' ∧ c ≠ 'X' := by
        constructor <;> rintro rfl <;> exact absurd (hrun _ List.mem_cons_self) (by decide +kernel)
      rw [List.cons_append, List.cons_append, completesReference]
      · exact closedRun_append unmarked_isDecimalDigit hne hmost hrun more
      all_goals simp [hx]
  | @hexadecimal mark run hmark hne hmost hrun =>
      obtain rfl : rest = '#' :: mark :: run ++ ';' :: more := by simpa using hmore.symm
      rcases hmark with rfl | rfl <;> exact closedRun_append unmarked_isHexDigit hne hmost hrun more

/-- What soft escaping looks for behind an ampersand is that it begins a reference. -/
theorem completesReference_iff (rest : List Char) :
    completesReference rest = true ↔ ∃ reference, Reference reference ∧ reference <+: '&' :: rest := by
  constructor
  · exact exists_reference_of_completesReference
  · rintro ⟨reference, hreference, hbegins⟩
    exact completesReference_of_reference hreference hbegins

/-! ### Safe text -/

theorem reference_of_mem_entities {entity : List Char} (h : entity ∈ entities) : Reference entity := by
  have hname : ∀ run : List Char, run ≠ [] → run.all isWord = true → Reference ('&' :: run ++ [';']) :=
    fun run hne hrun => .name hne (List.all_eq_true.mp hrun)
  simp only [entities, List.mem_cons, List.not_mem_nil, or_false] at h
  rcases h with rfl | rfl | rfl | rfl | rfl
  · exact hname ['a', 'm', 'p'] (by simp) (by decide +kernel)
  · exact hname ['l', 't'] (by simp) (by decide +kernel)
  · exact hname ['g', 't'] (by simp) (by decide +kernel)
  · exact hname ['q', 'u', 'o', 't'] (by simp) (by decide +kernel)
  · have hdigits : ['3', '9'].all isDecimalDigit = true := by decide +kernel
    exact .decimal (by simp) (by simp) (List.all_eq_true.mp hdigits)

/-- Inert text is safe: each of the five entities is a reference. -/
theorem safe_of_inert {cs : List Char} (h : Inert cs) : Safe cs :=
  Guarded.mono (fun _ => reference_of_mem_entities) h

theorem escapeSoft_cons_of_plain {c : Char} (h : c ∉ ['<', '>', '"', '\'', '&']) (rest : List Char) :
    escapeSoft (c :: rest) = c :: escapeSoft rest := by
  have hamp : ¬ (c == '&' && completesReference rest) = true := by
    intro hkept
    have hc : c = '&' := by simpa using (Bool.and_eq_true_iff.mp hkept).1
    exact h (by simp [hc])
  rw [escapeSoft, if_neg hamp, escapeChar_of_plain h, List.singleton_append]

theorem escapeSoft_append_of_plain {run : List Char} (h : ∀ c ∈ run, c ∉ ['<', '>', '"', '\'', '&'])
    (rest : List Char) : escapeSoft (run ++ rest) = run ++ escapeSoft rest := by
  induction run with
  | nil => rfl
  | cons c run ih =>
      rw [List.cons_append, escapeSoft_cons_of_plain (h c List.mem_cons_self),
        ih fun d hd => h d (List.mem_cons_of_mem c hd), List.cons_append]

/-- Escaping what comes after an ampersand does not touch a reference that begins there. -/
theorem exists_reference_escapeSoft {rest : List Char} (h : completesReference rest = true) :
    ∃ reference, Reference reference ∧ reference <+: '&' :: escapeSoft rest := by
  obtain ⟨reference, hreference, more, hmore⟩ := (completesReference_iff rest).mp h
  obtain ⟨tail, rfl, hplain⟩ := hreference.exists_plain
  obtain rfl : rest = tail ++ more := by simpa using hmore.symm
  rw [escapeSoft_append_of_plain hplain]
  exact ⟨'&' :: tail, hreference, List.prefix_append ('&' :: tail) _⟩

/-- Soft escaping makes any text safe. -/
theorem safe_escapeSoft (cs : List Char) : Safe (escapeSoft cs) := by
  induction cs with
  | nil => exact safe_of_inert inert_nil
  | cons c rest ih =>
      rw [escapeSoft]
      split
      case isTrue hkept =>
        obtain ⟨reference, hreference, hbegins⟩ :=
          exists_reference_escapeSoft (Bool.and_eq_true_iff.mp hkept).2
        exact Guarded.amp hreference hbegins ih
      case isFalse => exact (safe_of_inert (inert_escapeChar c)).append ih

/-- Soft escaping leaves safe text as it is. -/
theorem escapeSoft_of_safe {cs : List Char} (h : Safe cs) : escapeSoft cs = cs := by
  induction cs with
  | nil => rfl
  | cons c rest ih =>
      have hrest : escapeSoft rest = rest := ih h.tail
      by_cases hamp : c = '&'
      · subst hamp
        have hkept : completesReference rest = true :=
          (completesReference_iff rest).mpr (h.2 rest List.suffix_rfl)
        rw [escapeSoft, hkept, hrest]
        rfl
      · have hplain : c ∉ ['<', '>', '"', '\'', '&'] := by
          have hother := h.1 c List.mem_cons_self
          simp only [List.mem_cons, List.not_mem_nil, or_false, not_or] at hother ⊢
          exact ⟨hother.1, hother.2.1, hother.2.2.1, hother.2.2.2, hamp⟩
        rw [escapeSoft_cons_of_plain hplain, hrest]

theorem escapeSoft_eq_self_iff (cs : List Char) : escapeSoft cs = cs ↔ Safe cs := by
  constructor
  · intro h
    exact h ▸ safe_escapeSoft cs
  · exact escapeSoft_of_safe

theorem safe_escapeHtml (text : String) (full : Bool) : Safe (escapeHtml text full).toList := by
  rw [escapeHtml, String.toList_ofList]
  split
  · exact safe_of_inert (inert_escapeAll _)
  · exact safe_escapeSoft _

/-- Soft escaping is a closure onto safe text. Escaped text is safe, in full or softly; just the safe texts
are left as they are by soft escaping; so it changes neither its own output nor that of full escaping. -/
theorem soft_escaping_is_closure (text : String) :
    (∀ full, Safe (escapeHtml text full).toList) ∧
      (escapeHtml text false = text ↔ Safe text.toList) ∧
      ∀ full, escapeHtml (escapeHtml text full) false = escapeHtml text full := by
  have hself : ∀ s : String, escapeHtml s false = s ↔ Safe s.toList := by
    intro s
    rw [← escapeSoft_eq_self_iff, escapeHtml, if_neg Bool.false_ne_true, ← String.toList_inj,
      String.toList_ofList]
  exact ⟨safe_escapeHtml text, hself text, fun full => (hself _).mpr (safe_escapeHtml text full)⟩

end MarkdownNodes.Text
