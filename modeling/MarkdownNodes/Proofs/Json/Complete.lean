import MarkdownNodes.Proofs.Json.Digits

/-! Reading what the grammar allows. From each text of a value the reader reads that value, if there is room
for its depth, and leaves what stands behind the text. A value must be told apart from what follows; so the
text behind it starts with white space, a comma or a closing bracket, if there is any. -/

namespace MarkdownNodes.Json

/-! ### White space -/

theorem isWhitespace_of_mem {c : Char} (h : c ∈ [' ', '\t', '\n', '\r']) : c.isWhitespace = true := by
  simp only [List.mem_cons, List.not_mem_nil, or_false] at h
  rcases h with rfl | rfl | rfl | rfl <;> rfl

theorem skipSpace_append {space : List Char} (h : IsSpace space) (rest : List Char) :
    skipSpace (space ++ rest) = skipSpace rest := by
  induction space with
  | nil => rfl
  | cons c space ih =>
      have hc := isWhitespace_of_mem (h c List.mem_cons_self)
      have hrest := ih fun d hd => h d (List.mem_cons_of_mem c hd)
      rw [skipSpace, List.cons_append, List.dropWhile_cons_of_pos hc, ← hrest, skipSpace]

theorem skipSpace_of_head {c : Char} (h : c.isWhitespace = false) (rest : List Char) :
    skipSpace (c :: rest) = c :: rest := by
  rw [skipSpace, List.dropWhile_cons_of_neg (by simp [h])]

/-- The characters that end a value: white space, and what may stand behind a member of a container. -/
def delimiters : List Char := [' ', '\t', '\n', '\r', ',', ']', '\x7d']

/-- What may follow a value. -/
def Follows (rest : List Char) : Prop := ∀ c ∈ rest.head?, c ∈ delimiters

theorem Follows.of_space {space : List Char} (h : IsSpace space) : Follows space := by
  intro c hc
  exact List.mem_append_left [',', ']', '\x7d'] (h c (List.mem_of_mem_head? hc))

theorem Follows.append {space rest : List Char} (hspace : IsSpace space) (h : Follows rest) :
    Follows (space ++ rest) := by
  cases space with
  | nil => exact h
  | cons c space => exact fun d hd => of_space hspace d hd

theorem follows_cons {c : Char} (h : c ∈ delimiters) (rest : List Char) : Follows (c :: rest) := by
  rintro d ⟨⟩
  exact h

theorem isWhitespace_eq_false_of_not_mem {c : Char} (h : c ∉ delimiters) : c.isWhitespace = false := by
  simp only [delimiters, List.mem_cons, List.not_mem_nil, or_false, not_or] at h
  simp [Char.isWhitespace, h]

theorem isDigit_of_mem_delimiters {c : Char} (h : c ∈ delimiters) : c.isDigit = false := by
  simp only [delimiters, List.mem_cons, List.not_mem_nil, or_false] at h
  rcases h with rfl | rfl | rfl | rfl | rfl | rfl | rfl <;> rfl

/-! ### Numbers -/

namespace Number

/-- No digit stands in front. -/
def NoDigit (rest : List Char) : Prop := ∀ c ∈ rest.head?, c.isDigit = false

theorem NoDigit.of_follows {rest : List Char} (h : Follows rest) : NoDigit rest :=
  fun c hc => isDigit_of_mem_delimiters (h c hc)

theorem digits_append {ds rest : List Char} (h : Digits ds) (hrest : NoDigit rest) :
    digits (ds ++ rest) = .ok (ds, rest) := by
  cases ds with
  | nil => exact absurd rfl h.ne_nil
  | cons d ds =>
      have hall : ∀ c ∈ ds, c.isDigit = true := fun c hc => h.all c (List.mem_cons_of_mem d hc)
      have htake : (ds ++ rest).takeWhile Char.isDigit = ds := by
        rw [List.takeWhile_append_of_pos hall]
        cases rest with
        | nil => simp
        | cons c rest => simp [hrest c rfl]
      have hdrop : (ds ++ rest).dropWhile Char.isDigit = rest := by
        rw [List.dropWhile_append_of_pos hall]
        cases rest with
        | nil => rfl
        | cons c rest => simp [hrest c rfl]
      rw [List.cons_append, digits, if_pos (h.all d List.mem_cons_self), htake, hdrop]

theorem wholeDigits_append {ds rest : List Char} (h : Whole ds) (hrest : NoDigit rest) :
    wholeDigits (ds ++ rest) = .ok (ds, rest) := by
  have hzero : (ds.head? == some '0' && ds != ['0']) = false := by
    by_cases hhead : ds.head? = some '0'
    · simp [h.zero_alone hhead]
    · simp [hhead]
  simp [wholeDigits, digits_append h.toDigits hrest, hzero, bind, Except.bind]

theorem fractionDigits_append {fraction : Option (List Char)} {fs rest : List Char} (h : Fraction fraction fs)
    (hdigit : NoDigit rest) (hpoint : rest.head? ≠ some '.') :
    fractionDigits (fs ++ rest) = .ok (fraction, rest) := by
  cases h with
  | absent =>
      cases rest with
      | nil => rfl
      | cons c rest =>
          have hc : c ≠ '.' := fun h => hpoint (congrArg some h)
          simp [fractionDigits, hc]
  | given h => simp [fractionDigits, digits_append h hdigit, bind, Except.bind]

theorem exponentDigits_append {exponent : Option (Bool × List Char)} {es rest : List Char}
    (h : Exponent exponent es) (hrest : Follows rest) : exponentDigits (es ++ rest) = .ok (exponent, rest) := by
  have hdigit := NoDigit.of_follows hrest
  cases h with
  | absent =>
      cases rest with
      | nil => rfl
      | cons c rest =>
          have hc : c ∈ delimiters := hrest c rfl
          have hsmall : c ≠ 'e' := by rintro rfl; exact absurd hc (by decide)
          have hcapital : c ≠ 'E' := by rintro rfl; exact absurd hc (by decide)
          simp [exponentDigits, hsmall, hcapital]
  | @bare _ ds he h =>
      -- A digit is no sign.
      obtain ⟨d, ds, rfl⟩ := List.exists_cons_of_ne_nil h.ne_nil
      have hd : d.isDigit = true := h.all d List.mem_cons_self
      have hplus : d ≠ '+' := by rintro rfl; cases hd
      have hminus : d ≠ '-' := by rintro rfl; cases hd
      have hread := digits_append h hdigit
      rw [List.cons_append] at hread
      rcases he with rfl | rfl <;> simp [exponentDigits, hplus, hminus, hread, bind, Except.bind]
  | plus he h => rcases he with rfl | rfl <;> simp [exponentDigits, digits_append h hdigit, bind, Except.bind]
  | minus he h => rcases he with rfl | rfl <;> simp [exponentDigits, digits_append h hdigit, bind, Except.bind]

/-- Neither an exponent nor what follows a number starts with a digit or a point. -/
theorem head?_exponent {exponent : Option (Bool × List Char)} {es rest : List Char} (h : Exponent exponent es)
    (hrest : Follows rest) : NoDigit (es ++ rest) ∧ (es ++ rest).head? ≠ some '.' := by
  have hletter : ∀ e, e = 'e' ∨ e = 'E' → ∀ ds, NoDigit (e :: ds) ∧ (e :: ds).head? ≠ some '.' := by
    rintro e (rfl | rfl) ds <;> exact ⟨fun c hc => by cases hc; rfl, by simp⟩
  cases h with
  | absent =>
      refine ⟨.of_follows hrest, fun hpoint => ?_⟩
      exact absurd (hrest '.' hpoint) (by decide)
  | bare he h => exact hletter _ he _
  | plus he h => exact hletter _ he _
  | minus he h => exact hletter _ he _

theorem noDigit_fraction {fraction : Option (List Char)} {fs rest : List Char} (h : Fraction fraction fs)
    (hrest : NoDigit rest) : NoDigit (fs ++ rest) := by
  cases h with
  | absent => exact hrest
  | given h => exact fun c hc => by cases hc; rfl

/-- The text of a number after its sign, cut into parts where they meet. -/
theorem unsigned_append {p : Parts} {cs rest : List Char} {v : Json} (h : Unsigned p cs) (hvalue : p.value = some v)
    (hrest : Follows rest) : unsigned p.negative (cs ++ rest) = .ok (v, rest) := by
  cases h with
  | @parts fs es hwhole hfraction hexponent =>
      obtain ⟨hdigit, hpoint⟩ := head?_exponent hexponent hrest
      have hread := wholeDigits_append hwhole (noDigit_fraction hfraction hdigit)
      have hreadFraction := fractionDigits_append hfraction hdigit hpoint
      have hreadExponent := exponentDigits_append hexponent hrest
      rw [List.append_assoc, List.append_assoc, unsigned]
      simp [hread, hreadFraction, hreadExponent, hvalue, bind, Except.bind]

end Number

/-! ### Strings -/

theorem stringChars_append {cs ds : List Char} (h : CharsText cs ds) (rest : List Char) :
    stringChars (ds ++ '"' :: rest) = .ok (cs, rest) := by
  induction h with
  | nil => simp [stringChars]
  | plain hcontrol hquote hslash h ih => simp [stringChars, Char.not_lt.mpr hcontrol, ih, consChar]
  | @letter letter _ _ _ hletter h ih =>
      have hread := letterEscape?_eq_some_iff.mpr hletter
      have hunit : letter ≠ 'u' := by rintro rfl; cases hread
      simp [stringChars, hread, ih, consChar]
  | @unit c _ _ _ _ hunit h ih =>
      obtain ⟨hleading, htrailing⟩ := not_half c
      obtain ⟨a, b, c', d, rfl, hread⟩ := hunit.exists_read
      simp [stringChars, hread, htrailing, hleading, ih, consChar]
  | pair hwide hleading htrailing h ih =>
      obtain ⟨hfirst, hfirst', hsecond⟩ := half_of_wide hwide
      obtain ⟨a, b, c, d, rfl, hread⟩ := hleading.exists_read
      obtain ⟨a', b', c', d', rfl, hread'⟩ := htrailing.exists_read
      simp [stringChars, hread, hread', hfirst, hfirst', hsecond, pairChar_halves hwide, ih, consChar]

theorem string_append {cs ds : List Char} (h : CharsText cs ds) (rest : List Char) :
    string (ds ++ '"' :: rest) = .ok (String.ofList cs, rest) := by
  simp [string, stringChars_append h rest, bind, Except.bind]

/-! ### Members of containers -/

section Members

variable {α β : Type} {text : α → List Char → Prop} {member : Reader β} {f : α → Except ReadError β}
  {close : Char}

/-- In front of each text of `x` the reader is called at its first character that is no white space, makes of
`x` what `f` does, and leaves no more than white space of the text. -/
def Takes (text : α → List Char → Prop) (member : Reader β) (f : α → Except ReadError β) (x : α) : Prop :=
  ∀ cs, text x cs → ∀ rest, Follows rest →
    ∃ c tail space, skipSpace (cs ++ rest) = c :: tail ∧ c ∉ delimiters ∧ IsSpace space ∧
      member (c :: tail) = (·, space ++ rest) <$> f x

theorem Separated.length_le {xs : List α} {cs : List Char} (h : Separated text xs cs) :
    xs.length ≤ cs.length + 1 := by
  induction h with
  | one h => simp
  | more h hrest ih =>
      simp only [List.length_cons, List.length_append]
      omega

theorem skipSpace_close (hclose : close ∈ [']', '\x7d']) {space : List Char} (hspace : IsSpace space)
    (rest : List Char) : skipSpace (space ++ close :: rest) = close :: rest := by
  rw [skipSpace_append hspace]
  apply skipSpace_of_head
  simp only [List.mem_cons, List.not_mem_nil, or_false] at hclose
  rcases hclose with rfl | rfl <;> rfl

theorem mem_delimiters_of_close (hclose : close ∈ [']', '\x7d']) : close ∈ delimiters :=
  List.mem_append_right [' ', '\t', '\n', '\r', ','] hclose

theorem beq_close_eq_false (hclose : close ∈ [']', '\x7d']) {c : Char} (hc : c ∉ delimiters) :
    (c == close) = false := by
  rw [beq_eq_false_iff_ne]
  rintro rfl
  exact hc (mem_delimiters_of_close hclose)

theorem laterMembers_close (hclose : close ∈ [']', '\x7d']) {space : List Char} (hspace : IsSpace space)
    {bound : Nat} (hbound : 0 < bound) (rest : List Char) :
    laterMembers close member bound (space ++ close :: rest) = .ok ([], rest) := by
  obtain ⟨bound, rfl⟩ := Nat.exists_eq_add_one.mpr hbound
  simp [laterMembers, skipSpace_close hclose hspace]

/-- The first of several members is read, and then those behind it. -/
theorem laterMembers_comma (hclose : close ∈ [']', '\x7d']) {x : α} {cs : List Char} (h : text x cs)
    (hread : Takes text member f x) {space : List Char} (hspace : IsSpace space) (bound : Nat) {rest : List Char}
    (hrest : Follows rest) : ∃ after, IsSpace after ∧
      laterMembers close member (bound + 1) (space ++ ',' :: (cs ++ rest)) = (f x).bind fun y =>
        (laterMembers close member bound (after ++ rest)).bind fun (ys, rest) => .ok (y :: ys, rest) := by
  obtain ⟨c, tail, after, htail, hc, hafter, hmember⟩ := hread cs h rest hrest
  refine ⟨after, hafter, ?_⟩
  have hcomma : (',' == close) = false := by
    rw [beq_eq_false_iff_ne]
    rintro rfl
    exact absurd hclose (by decide)
  have hskip : skipSpace (space ++ ',' :: (cs ++ rest)) = ',' :: (cs ++ rest) := by
    rw [skipSpace_append hspace]
    exact skipSpace_of_head rfl _
  rw [laterMembers, hskip]
  simp only [hcomma, htail, beq_close_eq_false hclose hc, hmember]
  cases f x <;> rfl

theorem map_mapM_cons (x : α) (xs : List α) (rest : List Char) :
    (·, rest) <$> (x :: xs).mapM f = (f x).bind fun y =>
      ((·, rest) <$> xs.mapM f).bind fun (ys, rest) => .ok (y :: ys, rest) := by
  rw [List.mapM_cons]
  cases f x with
  | error e => rfl
  | ok y => cases xs.mapM f <;> rfl

theorem laterMembers_append (hclose : close ∈ [']', '\x7d']) {xs : List α} {cs : List Char}
    (h : Separated text xs cs) (rest : List Char) : ∀ {space : List Char} {bound : Nat}, IsSpace space →
      (∀ x ∈ xs, Takes text member f x) → xs.length < bound →
      laterMembers close member bound (space ++ ',' :: (cs ++ close :: rest)) = (·, rest) <$> xs.mapM f := by
  induction h with
  | @one x cs h =>
      intro space bound hspace hread hbound
      obtain ⟨bound, rfl⟩ := Nat.exists_eq_add_one.mpr (Nat.zero_lt_of_lt hbound)
      obtain ⟨after, hafter, hstep⟩ := laterMembers_comma hclose h (hread x (by simp)) hspace bound
        (follows_cons (mem_delimiters_of_close hclose) rest)
      rw [hstep, laterMembers_close hclose hafter (by simpa using hbound), map_mapM_cons]
      rfl
  | @more x xs cs ds h hrest ih =>
      intro space bound hspace hread hbound
      obtain ⟨bound, rfl⟩ := Nat.exists_eq_add_one.mpr (Nat.zero_lt_of_lt hbound)
      obtain ⟨after, hafter, hstep⟩ := laterMembers_comma hclose h (hread x (by simp)) hspace bound
        (follows_cons (c := ',') (by decide) (ds ++ close :: rest))
      have hlater := ih hafter (fun y hy => hread y (List.mem_cons_of_mem x hy)) (by simpa using hbound)
      rw [List.append_assoc, List.cons_append, hstep, hlater, map_mapM_cons]

theorem members_first (hclose : close ∈ [']', '\x7d']) {x : α} {cs : List Char} (h : text x cs)
    (hread : Takes text member f x) {rest : List Char} (hrest : Follows rest) : ∃ after, IsSpace after ∧
      members close member (cs ++ rest) = (f x).bind fun y =>
        (laterMembers close member ((after ++ rest).length + 1) (after ++ rest)).bind fun (ys, rest) =>
          .ok (y :: ys, rest) := by
  obtain ⟨c, tail, after, htail, hc, hafter, hmember⟩ := hread cs h rest hrest
  refine ⟨after, hafter, ?_⟩
  rw [members, htail]
  simp only [beq_close_eq_false hclose hc, hmember]
  cases f x <;> rfl

/-- The members of a container that is not empty. -/
theorem members_append (hclose : close ∈ [']', '\x7d']) {xs : List α} {cs : List Char} (h : Separated text xs cs)
    (hread : ∀ x ∈ xs, Takes text member f x) (rest : List Char) :
    members close member (cs ++ close :: rest) = (·, rest) <$> xs.mapM f := by
  cases h with
  | @one x cs h =>
      obtain ⟨after, hafter, hstep⟩ := members_first hclose h (hread x (by simp))
        (follows_cons (mem_delimiters_of_close hclose) rest)
      rw [hstep, laterMembers_close hclose hafter (Nat.succ_pos _), map_mapM_cons]
      rfl
  | @more x xs cs ds h hrest =>
      obtain ⟨after, hafter, hstep⟩ := members_first hclose h (hread x (by simp))
        (follows_cons (c := ',') (by decide) (ds ++ close :: rest))
      have hbound : xs.length < (after ++ ',' :: (ds ++ close :: rest)).length + 1 := by
        have hlength := hrest.length_le
        simp only [List.length_append, List.length_cons]
        omega
      have hlater := laterMembers_append hclose hrest rest hafter
        (fun y hy => hread y (List.mem_cons_of_mem x hy)) hbound
      rw [List.append_assoc, List.cons_append, hstep, hlater, map_mapM_cons]

theorem members_nil (hclose : close ∈ [']', '\x7d']) {space : List Char} (hspace : IsSpace space)
    (rest : List Char) : members close member (space ++ close :: rest) = .ok ([], rest) := by
  simp [members, skipSpace_close hclose hspace]

end Members

/-! ### Values -/

theorem not_mem_delimiters_of_isDigit {c : Char} (h : c.isDigit = true) : c ∉ delimiters :=
  fun hc => Bool.noConfusion (h.symm.trans (isDigit_of_mem_delimiters hc))

/-- No text of a value starts with white space or with what may stand behind a value. -/
theorem head_valueText {v : Json} {cs : List Char} (h : ValueText v cs) :
    ∃ c ds, cs = c :: ds ∧ c ∉ delimiters := by
  cases h with
  | number hnumber =>
      obtain ⟨p, h, -⟩ := numberText_iff.mp hnumber
      cases h with
      | negative hsign h => exact ⟨_, _, rfl, by decide⟩
      | positive hsign h =>
          obtain ⟨d, ds, rfl, hd⟩ := Number.head_unsigned h
          exact ⟨d, ds, rfl, not_mem_delimiters_of_isDigit hd⟩
  | _ => exact ⟨_, _, rfl, by decide⟩

/-- The text of a value that is no container does not start like that of one. -/
theorem head_of_depth_eq_zero {v : Json} {cs : List Char} (h : ValueText v cs) (hdepth : v.depth = 0) :
    ∃ c ds, cs = c :: ds ∧ c ≠ '[' ∧ c ≠ '\x7b' := by
  cases h with
  | number hnumber =>
      obtain ⟨p, h, -⟩ := numberText_iff.mp hnumber
      cases h with
      | negative hsign h => exact ⟨'-', _, rfl, by decide, by decide⟩
      | positive hsign h =>
          obtain ⟨d, ds, rfl, hd⟩ := Number.head_unsigned h
          refine ⟨d, ds, rfl, ?_, ?_⟩ <;>
            rintro rfl <;>
            cases hd
  | emptyArray | array | emptyObject | object => cases hdepth
  | _ => exact ⟨_, _, rfl, by decide, by decide⟩

theorem value_of_skipSpace_eq {cs ds : List Char} (h : skipSpace cs = skipSpace ds) (room : Nat) :
    value room cs = value room ds := by
  cases room <;> rw [value, value, h]

theorem value_digit {c : Char} (h : c.isDigit = true) (room : Nat) (rest : List Char) :
    value room (c :: rest) = Number.unsigned false (c :: rest) := by
  have hskip := skipSpace_of_head (isWhitespace_eq_false_of_not_mem (not_mem_delimiters_of_isDigit h)) rest
  cases room <;> rw [value, hskip]
  all_goals
    split
    case h_9 hcons =>
      cases hcons
      exact if_pos h
    all_goals
      rename_i hcons
      cases hcons <;> cases h

/-- From whatever text of the value, with at most so many containers open at a time, the reader reads it. -/
def ReadsValue (room : Nat) (v : Json) : Prop :=
  ∀ cs, ValueText v cs → ∀ rest, Follows rest → value room (cs ++ rest) = .ok (v, rest)

theorem takes_element {room : Nat} {v : Json} (h : ReadsValue room v) :
    Takes ElementText (value room) .ok v := by
  intro cs htext rest hrest
  cases htext with
  | @padded before after cs v hbefore htext hafter =>
      obtain ⟨c, ds, rfl, hc⟩ := head_valueText htext
      have hread := h _ htext (after ++ rest) (hrest.append hafter)
      refine ⟨c, ds ++ (after ++ rest), after, ?_, hc, hafter, hread⟩
      rw [List.append_assoc, skipSpace_append hbefore, List.append_assoc]
      exact skipSpace_of_head (isWhitespace_eq_false_of_not_mem hc) _

theorem value_element {room : Nat} {v : Json} (h : ReadsValue room v) {cs rest : List Char} (htext : ElementText v cs)
    (hrest : Follows rest) : ∃ space, IsSpace space ∧ value room (cs ++ rest) = .ok (v, space ++ rest) := by
  obtain ⟨c, tail, space, htail, hc, hspace, hread⟩ := takes_element h cs htext rest hrest
  refine ⟨space, hspace, ?_⟩
  rw [value_of_skipSpace_eq (htail.trans (skipSpace_of_head (isWhitespace_eq_false_of_not_mem hc) tail).symm), hread]
  rfl

theorem takes_field {room : Nat} {field : String × Json} (h : ReadsValue room field.2) :
    Takes FieldText (Json.field (value room)) .ok field := by
  intro cs htext rest hrest
  cases htext with
  | @colon before between name ds cs v hbefore hname hbetween htext =>
      obtain ⟨space, hspace, hread⟩ := value_element h htext hrest
      have hskip : skipSpace (between ++ ':' :: (cs ++ rest)) = ':' :: (cs ++ rest) := by
        rw [skipSpace_append hbetween]
        exact skipSpace_of_head rfl _
      refine ⟨'"', ds ++ '"' :: (between ++ ':' :: (cs ++ rest)), space, ?_, by decide, hspace, ?_⟩
      · simp only [List.append_assoc, List.cons_append]
        rw [skipSpace_append hbefore]
        exact skipSpace_of_head rfl _
      · simp [Json.field, string_append hname, hskip, hread, bind, Except.bind, Functor.map, Except.map]

theorem mapM_ok {α : Type} (xs : List α) : xs.mapM (Except.ok : α → Except ReadError α) = .ok xs := by
  induction xs with
  | nil => rfl
  | cons x xs ih => simp [List.mapM_cons, ih, bind, Except.bind, pure, Except.pure]

theorem value_number {v : Json} {cs rest : List Char} (hnumber : NumberText v cs) (hrest : Follows rest) (room : Nat) :
    value room (cs ++ rest) = .ok (v, rest) := by
  obtain ⟨p, h, hvalue⟩ := numberText_iff.mp hnumber
  cases h with
  | negative hsign h =>
      have hread := Number.unsigned_append h hvalue hrest
      rw [hsign] at hread
      cases room <;> exact hread
  | positive hsign h =>
      have hread := Number.unsigned_append h hvalue hrest
      rw [hsign] at hread
      obtain ⟨d, ds, rfl, hd⟩ := Number.head_unsigned h
      rw [List.cons_append, value_digit hd]
      exact hread

theorem value_string {cs ds : List Char} (h : CharsText cs ds) (room : Nat) (rest : List Char) :
    value room ('"' :: (ds ++ '"' :: rest)) = .ok (.str (String.ofList cs), rest) := by
  have hvalue : value room ('"' :: (ds ++ '"' :: rest)) =
      (string (ds ++ '"' :: rest)).bind fun read => .ok (.str read.1, read.2) := by
    cases room <;> rfl
  rw [hvalue, string_append h]
  rfl

/-- A value that is no container needs no room. -/
theorem readsValue_of_depth_eq_zero {v : Json} (hdepth : v.depth = 0) (room : Nat) : ReadsValue room v := by
  intro cs htext rest hrest
  cases htext with
  | null | true | false => cases room <;> rfl
  | number h => exact value_number h hrest room
  | string h =>
      rw [List.cons_append, List.append_assoc]
      exact value_string h room rest
  | emptyArray | array | emptyObject | object => cases hdepth

theorem readsValue_array {room : Nat} {vs : List Json} (h : ∀ v ∈ vs, ReadsValue room v) :
    ReadsValue (room + 1) (.arr vs) := by
  intro cs htext rest hrest
  have hvalue : ∀ inside, members ']' (value room) (inside ++ ']' :: rest) = .ok (vs, rest) →
      value (room + 1) ('[' :: (inside ++ [']']) ++ rest) = .ok (.arr vs, rest) := by
    intro inside hmembers
    have hopen : value (room + 1) ('[' :: (inside ++ ']' :: rest)) =
        (members ']' (value room) (inside ++ ']' :: rest)).bind fun read => .ok (.arr read.1, read.2) := rfl
    rw [List.cons_append, List.append_assoc, List.singleton_append, hopen, hmembers]
    rfl
  cases htext with
  | number h => cases h.depth_eq_zero
  | emptyArray hspace => exact hvalue _ (members_nil (by decide) hspace rest)
  | array helements =>
      have hclose : ']' ∈ [']', '\x7d'] := by decide
      have hmembers := members_append hclose helements (fun v hv => takes_element (h v hv)) rest
      rw [mapM_ok] at hmembers
      exact hvalue _ hmembers

theorem readsValue_object {room : Nat} {fields : List (String × Json)} (h : ∀ field ∈ fields, ReadsValue room field.2) :
    ReadsValue (room + 1) (.obj fields) := by
  intro cs htext rest hrest
  have hvalue : ∀ inside, members '\x7d' (Json.field (value room)) (inside ++ '\x7d' :: rest) = .ok (fields, rest) →
      value (room + 1) ('\x7b' :: (inside ++ ['\x7d']) ++ rest) = .ok (.obj fields, rest) := by
    intro inside hmembers
    have hopen : value (room + 1) ('\x7b' :: (inside ++ '\x7d' :: rest)) =
        (members '\x7d' (Json.field (value room)) (inside ++ '\x7d' :: rest)).bind fun read =>
          .ok (.obj read.1, read.2) := rfl
    rw [List.cons_append, List.append_assoc, List.singleton_append, hopen, hmembers]
    rfl
  cases htext with
  | number h => cases h.depth_eq_zero
  | emptyObject hspace => exact hvalue _ (members_nil (by decide) hspace rest)
  | object hfields =>
      have hclose : '\x7d' ∈ [']', '\x7d'] := by decide
      have hmembers := members_append hclose hfields (fun field hfield => takes_field (h field hfield)) rest
      rw [mapM_ok] at hmembers
      exact hvalue _ hmembers

/-- The reader reads every value from its texts, if there is room for its containers: by induction on the room,
which shrinks with every bracket. -/
theorem readsValue (room : Nat) : ∀ v : Json, v.depth ≤ room → ReadsValue room v := by
  induction room with
  | zero => exact fun v hdepth => readsValue_of_depth_eq_zero (Nat.le_zero.mp hdepth) 0
  | succ room ih =>
      intro v hdepth
      cases v with
      | arr vs =>
          have hinside : depthOf vs ≤ room := Nat.le_of_succ_le_succ hdepth
          exact readsValue_array fun v hv => ih v (Nat.le_trans (depth_le_depthOf hv) hinside)
      | obj fields =>
          have hinside : depthOfFields fields ≤ room := Nat.le_of_succ_le_succ hdepth
          exact readsValue_object fun field hfield =>
            ih field.2 (Nat.le_trans (depth_le_depthOfFields hfield) hinside)
      | _ => exact readsValue_of_depth_eq_zero rfl (room + 1)

theorem atEnd_of_space {space : List Char} (h : IsSpace space) : atEnd space = .ok () := by
  have hskip := skipSpace_append h []
  rw [List.append_nil] at hskip
  rw [atEnd, hskip]
  rfl

/-- A whole text of a value is read as that value. -/
theorem parse_of_text {room : Nat} {v : Json} {text : String} (h : ElementText v text.toList)
    (hdepth : v.depth ≤ room) : parse room text = .ok v := by
  have hend : Follows [] := nofun
  obtain ⟨space, hspace, hread⟩ := value_element (readsValue room v hdepth) h hend
  rw [List.append_nil, List.append_nil] at hread
  simp [parse, hread, atEnd_of_space hspace, bind, Except.bind]

end MarkdownNodes.Json
