import MarkdownNodes.Json.Parse

/-! The grammar of JSON, told without a reader: which texts there are for a value. An integer of 64 bits has its
decimal numeral for a text. Every other number is cut into its parts as the grammar has them, and which floating
point number these give is not its business. A character of a string may be written as itself or as an
escape, by a letter or by its units of 16 bits; lone halves of surrogate pairs have no texts. -/

namespace MarkdownNodes.Json

/-- White space: any number of spaces, tabs and line ends. -/
def IsSpace (cs : List Char) : Prop := ∀ c ∈ cs, c ∈ [' ', '\t', '\n', '\r']

theorem isSpace_nil : IsSpace [] := nofun

/-! ### Numbers -/

namespace Number

/-- One or more digits. -/
structure Digits (ds : List Char) : Prop where
  ne_nil : ds ≠ []
  all : ∀ d ∈ ds, d.isDigit = true

/-- The digits before the point: a zero alone, or digits that do not start with one. -/
structure Whole (ds : List Char) : Prop extends Digits ds where
  zero_alone : ds.head? = some '0' → ds = ['0']

inductive Fraction : Option (List Char) → List Char → Prop where
  | absent : Fraction none []
  | given {ds : List Char} (h : Digits ds) : Fraction (some ds) ('.' :: ds)

inductive Exponent : Option (Bool × List Char) → List Char → Prop where
  | absent : Exponent none []
  | bare {e : Char} {ds : List Char} (he : e = 'e' ∨ e = 'E') (h : Digits ds) :
      Exponent (some (false, ds)) (e :: ds)
  | plus {e : Char} {ds : List Char} (he : e = 'e' ∨ e = 'E') (h : Digits ds) :
      Exponent (some (false, ds)) (e :: '+' :: ds)
  | minus {e : Char} {ds : List Char} (he : e = 'e' ∨ e = 'E') (h : Digits ds) :
      Exponent (some (true, ds)) (e :: '-' :: ds)

/-- The texts of a number with the given parts, after its sign. -/
inductive Unsigned : Parts → List Char → Prop where
  | parts {p : Parts} {fs es : List Char} (hwhole : Whole p.whole) (hfraction : Fraction p.fraction fs)
      (hexponent : Exponent p.exponent es) : Unsigned p (p.whole ++ (fs ++ es))

/-- The texts of a number with the given parts. -/
inductive Text : Parts → List Char → Prop where
  | positive {p : Parts} {cs : List Char} (hsign : p.negative = false) (h : Unsigned p cs) : Text p cs
  | negative {p : Parts} {cs : List Char} (hsign : p.negative = true) (h : Unsigned p cs) : Text p ('-' :: cs)

theorem head_unsigned {p : Parts} {cs : List Char} (h : Unsigned p cs) :
    ∃ d ds, cs = d :: ds ∧ d.isDigit = true := by
  cases h with
  | @parts fs es hwhole hfraction hexponent =>
      obtain ⟨d, ds, hds⟩ := List.exists_cons_of_ne_nil hwhole.ne_nil
      have hd := hwhole.all d (by rw [hds]; exact List.mem_cons_self)
      exact ⟨d, ds ++ (fs ++ es), by rw [hds, List.cons_append], hd⟩

end Number

/-- The text of an integer of 64 bits, signed or unsigned: its decimal numeral. -/
inductive IntText : Int → List Char → Prop where
  | natural {n : Nat} (hfits : n < 0x10000000000000000) : IntText n (Nat.toDigits 10 n)
  | negative {n : Nat} (hpos : 0 < n) (hfits : n ≤ 0x8000000000000000) : IntText (-n) ('-' :: Nat.toDigits 10 n)

/-- The texts of a number. Whatever is not the text of an integer denotes a floating point number, if that is not
out of range. -/
inductive NumberText : Json → List Char → Prop where
  | int {n : Int} {cs : List Char} (h : IntText n cs) : NumberText (.int n) cs
  | float {p : Number.Parts} {x : Float} {cs : List Char} (h : Number.Text p cs) (hint : ∀ n, ¬ IntText n cs)
      (hvalue : p.magnitude = some x) : NumberText (.float (if p.negative then -x else x)) cs

/-! ### Strings -/

/-- The letters that are an escape, and the characters that they stand for. -/
def letterEscapes : List (Char × Char) :=
  [('"', '"'), ('\\', '\\'), ('/', '/'), ('b', '\x08'), ('f', '\x0c'), ('n', '\n'), ('r', '\r'), ('t', '\t')]

/-- The hexadecimal digits in either case, each at the place of its value. -/
def hexDigits : List String := ["0123456789abcdef", "0123456789ABCDEF"]

/-- The character is a hexadecimal digit of the value. -/
def HexDigit (n : Nat) (c : Char) : Prop := ∃ digits ∈ hexDigits, digits.toList[n]? = some c

instance (n : Nat) (c : Char) : Decidable (HexDigit n c) :=
  inferInstanceAs (Decidable (∃ digits ∈ hexDigits, digits.toList[n]? = some c))

/-- The text of a unit of 16 bits: its four hexadecimal digits. -/
inductive UnitText : Nat → List Char → Prop where
  | digits {unit i j k l : Nat} {a b c d : Char} (ha : HexDigit i a) (hb : HexDigit j b) (hc : HexDigit k c)
      (hd : HexDigit l d) (hunit : unit = 0x1000 * i + 0x100 * j + 0x10 * k + l) : UnitText unit [a, b, c, d]

/-- The first half of the surrogate pair of a character beyond 16 bits. -/
def leadingHalf (c : Char) : Nat := 0xD800 + (c.toNat - 0x10000) / 0x400

/-- The second half of the surrogate pair of a character beyond 16 bits. -/
def trailingHalf (c : Char) : Nat := 0xDC00 + (c.toNat - 0x10000) % 0x400

/-- The texts of characters between quotes. -/
inductive CharsText : List Char → List Char → Prop where
  | nil : CharsText [] []
  | plain {c : Char} {cs ds : List Char} (hcontrol : ' ' ≤ c) (hquote : c ≠ '"') (hslash : c ≠ '\\')
      (h : CharsText cs ds) : CharsText (c :: cs) (c :: ds)
  | letter {letter c : Char} {cs ds : List Char} (hletter : (letter, c) ∈ letterEscapes) (h : CharsText cs ds) :
      CharsText (c :: cs) ('\\' :: letter :: ds)
  | unit {c : Char} {us cs ds : List Char} (hnarrow : c.toNat < 0x10000) (hunit : UnitText c.toNat us)
      (h : CharsText cs ds) : CharsText (c :: cs) ('\\' :: 'u' :: (us ++ ds))
  | pair {c : Char} {us vs cs ds : List Char} (hwide : 0x10000 ≤ c.toNat) (hleading : UnitText (leadingHalf c) us)
      (htrailing : UnitText (trailingHalf c) vs) (h : CharsText cs ds) :
      CharsText (c :: cs) ('\\' :: 'u' :: (us ++ '\\' :: 'u' :: (vs ++ ds)))

/-- Characters that need no escape are written as they are. -/
theorem charsText_self {cs : List Char} (h : ∀ c ∈ cs, ' ' ≤ c ∧ c ≠ '"' ∧ c ≠ '\\') : CharsText cs cs := by
  induction cs with
  | nil => exact .nil
  | cons c cs ih =>
      obtain ⟨hcontrol, hquote, hslash⟩ := h c List.mem_cons_self
      exact .plain hcontrol hquote hslash (ih fun d hd => h d (List.mem_cons_of_mem c hd))

/-! ### Values -/

/-- The texts of one or more things, with commas between them. -/
inductive Separated {α : Type} (text : α → List Char → Prop) : List α → List Char → Prop where
  | one {x : α} {cs : List Char} (h : text x cs) : Separated text [x] cs
  | more {x : α} {xs : List α} {cs ds : List Char} (h : text x cs) (hrest : Separated text xs ds) :
      Separated text (x :: xs) (cs ++ ',' :: ds)

mutual

/-- The texts of a value. -/
inductive ValueText : Json → List Char → Prop where
  | null : ValueText .null ['n', 'u', 'l', 'l']
  | true : ValueText (.bool true) ['t', 'r', 'u', 'e']
  | false : ValueText (.bool false) ['f', 'a', 'l', 's', 'e']
  | number {v : Json} {cs : List Char} (h : NumberText v cs) : ValueText v cs
  | string {cs ds : List Char} (h : CharsText cs ds) : ValueText (.str (String.ofList cs)) ('"' :: (ds ++ ['"']))
  | emptyArray {space : List Char} (h : IsSpace space) : ValueText (.arr []) ('[' :: (space ++ [']']))
  | array {vs : List Json} {cs : List Char} (h : Separated ElementText vs cs) :
      ValueText (.arr vs) ('[' :: (cs ++ [']']))
  | emptyObject {space : List Char} (h : IsSpace space) : ValueText (.obj []) ('\x7b' :: (space ++ ['\x7d']))
  | object {fields : List (String × Json)} {cs : List Char} (h : Separated FieldText fields cs) :
      ValueText (.obj fields) ('\x7b' :: (cs ++ ['\x7d']))

/-- The texts of a value with white space around it; so is a whole document written. -/
inductive ElementText : Json → List Char → Prop where
  | padded {before after cs : List Char} {v : Json} (hbefore : IsSpace before) (h : ValueText v cs)
      (hafter : IsSpace after) : ElementText v (before ++ (cs ++ after))

inductive FieldText : String × Json → List Char → Prop where
  | colon {before between name ds cs : List Char} {v : Json} (hbefore : IsSpace before) (hname : CharsText name ds)
      (hbetween : IsSpace between) (h : ElementText v cs) :
      FieldText (String.ofList name, v) (before ++ '"' :: (ds ++ '"' :: (between ++ ':' :: cs)))

end

mutual

/-- How many containers are open at a time, at most, in the texts of the value. -/
def depth : Json → Nat
  | .arr vs => depthOf vs + 1
  | .obj fields => depthOfFields fields + 1
  | _ => 0

def depthOf : List Json → Nat
  | [] => 0
  | v :: vs => max v.depth (depthOf vs)

def depthOfFields : List (String × Json) → Nat
  | [] => 0
  | (_, v) :: fields => max v.depth (depthOfFields fields)

end

theorem depth_le_depthOf {v : Json} {vs : List Json} (h : v ∈ vs) : v.depth ≤ depthOf vs := by
  induction vs with
  | nil => cases h
  | cons w vs ih =>
      rw [depthOf]
      rcases List.mem_cons.mp h with rfl | h
      · exact Nat.le_max_left ..
      · exact Nat.le_trans (ih h) (Nat.le_max_right ..)

theorem depth_le_depthOfFields {field : String × Json} {fields : List (String × Json)} (h : field ∈ fields) :
    field.2.depth ≤ depthOfFields fields := by
  induction fields with
  | nil => cases h
  | cons first fields ih =>
      rw [depthOfFields]
      rcases List.mem_cons.mp h with rfl | h
      · exact Nat.le_max_left ..
      · exact Nat.le_trans (ih h) (Nat.le_max_right ..)

/-- A number holds no container. -/
theorem NumberText.depth_eq_zero {v : Json} {cs : List Char} (h : NumberText v cs) : v.depth = 0 := by
  cases h <;> rfl

end MarkdownNodes.Json
