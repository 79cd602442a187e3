import MarkdownNodes.ReadError
import MarkdownNodes.Token.Schema

/-! Tokens from JSON values. A token is an object with a `type` field and its kind's fields by name, or
an array of the type and the fields in order. Fields may be left out, names that the kind does not
know are skipped, and everything else that does not fit is refused. -/

namespace MarkdownNodes

def Align.ofName? : String → Option Align
  | "left" => some .left
  | "center" => some .center
  | "right" => some .right
  | _ => none

/-- An alignment is its name, alone or as the only field of an object without content; null is none. -/
def Align.ofJson? : Json → Option (Option Align)
  | .null => some none
  | .str s => (ofName? s).map some
  | .obj [(s, .null)] => (ofName? s).map some
  | .obj [(s, .obj [])] => (ofName? s).map some
  | _ => none

/-- The values of all fields of a schema, from those that are given by name: a field given once has
that value, one that is not given its default, and no field may be given twice. -/
def Schema.complete? (schema : Schema) (given : List (String × FieldValue)) : Option (List FieldValue) :=
  schema.mapM fun (name, type) =>
    match given.filter (·.1 == name) with
    | [] => some type.default
    | [(_, value)] => some value
    | _ => none

/-- The type of the field of that name. -/
def Schema.type? (schema : Schema) (name : String) : Option FieldType := schema.lookup name

/-- The tag of an object: its only `type` field. -/
def Tag.ofObject? (fields : List (String × Json)) : Option Tag :=
  match fields.filter (·.1 == "type") with
  | [(_, tag)] => Tag.ofJson? tag
  | _ => none

mutual

/-- The token that a value stands for. -/
def Token.ofJson? : Json → Option Token
  | .obj fields => do
      let tag ← Tag.ofObject? fields
      tag.token? (← tag.schema.complete? (← givenFields? tag.schema fields))
  | .arr (tag :: values) => do
      let tag ← Tag.ofJson? tag
      tag.token? (← orderedFields? (tag.schema.map Prod.snd) values)
  | _ => none

def Token.listOfJson? : List Json → Option (List Token)
  | [] => some []
  | v :: vs => do some ((← Token.ofJson? v) :: (← Token.listOfJson? vs))

/-- The value of a field of a certain type. -/
def fieldValue? : FieldType → Json → Option FieldValue
  | .text, .str s => some (.text s)
  | .flag, .bool b => some (.flag b)
  | .depth, .int n => if 0 ≤ n ∧ n < UInt8.size then some (.depth (UInt8.ofNat n.toNat)) else none
  | .start, .int n => if 0 ≤ n ∧ n < UInt32.size then some (.start (UInt32.ofNat n.toNat)) else none
  | .start, .str _ => some (.start 1)
  | .start, .null => some (.start 1)
  | .maybeText, .str s => some (.maybeText (some s))
  | .maybeText, .null => some (.maybeText none)
  | .maybeFlag, .bool b => some (.maybeFlag (some b))
  | .maybeFlag, .null => some (.maybeFlag none)
  | .maybeAlign, v => (Align.ofJson? v).map .maybeAlign
  | .aligns, .arr vs => (vs.mapM Align.ofJson?).map .aligns
  | .tokens, .arr vs => do some (.tokens (← Token.listOfJson? vs))
  | .maybeTokens, .arr vs => do some (.maybeTokens (some (← Token.listOfJson? vs)))
  | .maybeTokens, .null => some (.maybeTokens none)
  | .items, .arr vs => do some (.items (← (← records? Item.schema vs).mapM Item.ofFields?))
  | .cells, .arr vs => do some (.cells (← (← records? Cell.schema vs).mapM Cell.ofFields?))
  | .rows, .arr vs => do
      some (.rows (← (← recordRows? Cell.schema vs).mapM fun row => row.mapM Cell.ofFields?))
  | _, _ => none

/-- The field values of something that has a schema but no kind. -/
def record? (schema : Schema) : Json → Option (List FieldValue)
  | .obj fields => do schema.complete? (← givenFields? schema fields)
  | .arr values => orderedFields? (schema.map Prod.snd) values
  | _ => none

def records? (schema : Schema) : List Json → Option (List (List FieldValue))
  | [] => some []
  | v :: vs => do some ((← record? schema v) :: (← records? schema vs))

def recordRows? (schema : Schema) : List Json → Option (List (List (List FieldValue)))
  | [] => some []
  | .arr vs :: rows => do some ((← records? schema vs) :: (← recordRows? schema rows))
  | _ :: _ => none

/-- The fields of an object that a schema knows. -/
def givenFields? (schema : Schema) : List (String × Json) → Option (List (String × FieldValue))
  | [] => some []
  | (name, v) :: rest =>
      match schema.type? name with
      | some type => do some ((name, ← fieldValue? type v) :: (← givenFields? schema rest))
      | none => givenFields? schema rest

/-- The fields given by an array; those past its end have their defaults. -/
def orderedFields? : List FieldType → List Json → Option (List FieldValue)
  | types, [] => some (types.map FieldType.default)
  | [], _ :: _ => none
  | type :: types, v :: vs => do some ((← fieldValue? type v) :: (← orderedFields? types vs))

end

/-- The token list that a value stands for. -/
def Token.listOfJson (v : Json) : Except ReadError (List Token) :=
  match v with
  | .arr vs =>
      match Token.listOfJson? vs with
      | some tokens => .ok tokens
      | none => .error .badToken
  | v => .error (.notList v.shape)

end MarkdownNodes
