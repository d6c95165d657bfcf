import BlockStage.Text.Surrogate
import BlockStage.Value

/-! # JSON texts, read

    A reader that keeps the order of members and says where a malformed
    text goes wrong.  Beside the standard forms it knows `NaN`, `Infinity`
    and `-Infinity`.  A number with a point or an exponent is a measure,
    any other a count.  Lists and objects may be nested up to a limit;
    what is left of it is the `room` of `value`, whose fuel is bounded by
    the length of the text. -/

namespace BlockStage

namespace Json

/-- What is wrong with a text. -/
inductive Problem where
  | byteOrderMark
  | noValue
  | extraData
  | noName
  | noColon
  | noComma
  | openString
  | badEscape
  | badUnicodeEscape
  | controlCharacter
  /-- A count has more digits than may be read. -/
  | tooManyDigits (digits : Nat)
  /-- Lists and objects are nested too deep. -/
  | tooDeep
deriving DecidableEq

/-- A problem and the offset at which it was found. -/
structure Malformed where
  /-- What is wrong. -/
  problem : Problem
  /-- The number of characters before the place. -/
  offset : Nat
deriving DecidableEq

/-- A place in a text: what is left and how much came before. -/
structure Cursor where
  /-- The characters left. -/
  rest : List Char
  /-- The number of characters before them. -/
  offset : Nat

/-- The characters that may stand between tokens. -/
def isGap (c : Char) : Bool :=
  c = ' ' ∨ c = '\t' ∨ c = '\n' ∨ c = '\r'

/-- Past a count of characters. -/
def Cursor.skip (c : Cursor) (n : Nat) : Cursor :=
  ⟨c.rest.drop n, c.offset + n⟩

/-- Past the gaps. -/
def Cursor.skipGaps (c : Cursor) : Cursor :=
  c.skip (c.rest.takeWhile isGap).length

/-- A complaint about a place. -/
def Cursor.fail {α : Type} (c : Cursor) (p : Problem) : Except Malformed α :=
  .error ⟨p, c.offset⟩

/-- The value of a hexadecimal digit. -/
def hexDigit? (c : Char) : Option Nat :=
  if '0' ≤ c ∧ c ≤ '9' then some (c.toNat - 48)
  else if 'a' ≤ c ∧ c ≤ 'f' then some (c.toNat - 87)
  else if 'A' ≤ c ∧ c ≤ 'F' then some (c.toNat - 55)
  else none

/-- The code unit four hexadecimal digits write. -/
def unit? (a b c d : Char) : Option Nat := do
  let a ← hexDigit? a
  let b ← hexDigit? b
  let c ← hexDigit? c
  let d ← hexDigit? d
  return ((a * 16 + b) * 16 + c) * 16 + d

/-- The character a one-letter escape stands for. -/
def shortEscape? : Char → Option Char
  | '"' => some '"'
  | '\\' => some '\\'
  | '/' => some '/'
  | 'b' => some '\x08'
  | 'f' => some '\x0c'
  | 'n' => some '\n'
  | 'r' => some '\r'
  | 't' => some '\t'
  | _ => none

/-- The code point of a pair of surrogates. -/
def pairValue (high low : Nat) : Nat :=
  0x10000 + (high - 0xD800) * 0x400 + (low - 0xDC00)

/-- The characters of a string up to its closing quote, with stand-ins for
    surrogates on their own.  `start` is the offset of the opening quote,
    `offset` that of the next character. -/
def stringTail (start offset : Nat) (done : List Char) :
    List Char → Except Malformed (String × Cursor)
  | [] => .error ⟨.openString, start⟩
  | '"' :: rest => .ok (.ofList done.reverse, ⟨rest, offset + 1⟩)
  | '\\' :: [] => .error ⟨.openString, start⟩
  | '\\' :: 'u' :: a :: b :: c :: d :: next :: rest =>
      match unit? a b c d with
      | none => .error ⟨.badUnicodeEscape, offset + 1⟩
      | some high =>
          if 0xD800 ≤ high ∧ high < 0xDC00 then
            match next, rest with
            | '\\', 'u' :: e :: f :: g :: h :: last :: rest =>
                match unit? e f g h with
                | none => .error ⟨.badUnicodeEscape, offset + 7⟩
                | some low =>
                    if 0xDC00 ≤ low ∧ low < 0xE000 then
                      stringTail start (offset + 12)
                        (Char.ofNat (pairValue high low) :: done)
                        (last :: rest)
                    else
                      stringTail start (offset + 6)
                        (Text.standIn high :: done)
                        ('\\' :: 'u' :: e :: f :: g :: h :: last :: rest)
            | next, rest =>
                stringTail start (offset + 6) (Text.standIn high :: done)
                  (next :: rest)
          else
            let c :=
              if 0xDC00 ≤ high ∧ high < 0xE000 then Text.standIn high
              else Char.ofNat high
            stringTail start (offset + 6) (c :: done) (next :: rest)
  | '\\' :: 'u' :: _ => .error ⟨.badUnicodeEscape, offset + 1⟩
  | '\\' :: c :: rest =>
      match shortEscape? c with
      | none => .error ⟨.badEscape, offset⟩
      | some e => stringTail start (offset + 2) (e :: done) rest
  | c :: rest =>
      if c.toNat < 0x20 then .error ⟨.controlCharacter, offset⟩
      else stringTail start (offset + 1) (c :: done) rest
termination_by cs => cs.length

/-- A string, at its opening quote. -/
def string (c : Cursor) : Except Malformed (String × Cursor) :=
  stringTail c.offset (c.offset + 1) [] (c.rest.drop 1)

/-- The ASCII digits at the front. -/
def digitsOf (cs : List Char) : List Char :=
  cs.takeWhile Char.isDigit

/-- The number a list of ASCII digits writes. -/
def ofDigits (cs : List Char) : Nat :=
  Reading.ofDigits (cs.map fun c => c.toNat - 48)

/-- The fraction at the front: a point and at least one digit. -/
def fraction : List Char → List Char
  | '.' :: rest => digitsOf rest
  | _ => []

/-- The exponent at the front, with the number of characters it takes. -/
def exponent : List Char → Option (Int × Nat)
  | c :: rest =>
      if c = 'e' ∨ c = 'E' then
        let (negative, signs, rest) :=
          match rest with
          | '-' :: rest => (true, 1, rest)
          | '+' :: rest => (false, 1, rest)
          | _ => (false, 0, rest)
        match digitsOf rest with
        | [] => none
        | ds =>
            let e : Int := ofDigits ds
            some (if negative then -e else e, 1 + signs + ds.length)
      else none
  | [] => none

/-- A number; `none` where none begins. -/
def number? (c : Cursor) : Except Malformed (Option (Value × Cursor)) :=
  let negative := c.rest.head? = some '-'
  let signs := if negative then 1 else 0
  let body := c.rest.drop signs
  let whole :=
    match digitsOf body with
    | '0' :: _ => ['0']
    | ds => ds
  if whole = [] then .ok none
  else
    let rest := body.drop whole.length
    let places := fraction rest
    let rest :=
      if places = [] then rest else rest.drop (places.length + 1)
    let power := exponent rest
    let taken :=
      signs + whole.length
        + (if places = [] then 0 else places.length + 1)
        + (power.map (·.2)).getD 0
    if places = [] ∧ power = none then
      if Reading.digitLimit < whole.length then
        c.fail (.tooManyDigits whole.length)
      else
        let n : Int := ofDigits whole
        .ok (some (.int (if negative then -n else n), c.skip taken))
    else
      let x := Reading.ofDecimal (ofDigits (whole ++ places))
        ((power.map (·.1)).getD 0 - (places.length : Int))
      .ok (some (.real (if negative then x.neg else x), c.skip taken))

/-- A word and the value it stands for. -/
def words : List (String × Value) :=
  [("null", .null), ("true", .bool true), ("false", .bool false),
    ("NaN", .real .nan), ("Infinity", .real (.inf false)),
    ("-Infinity", .real (.inf true))]

/-- The word at the front, if one is there. -/
def word? (c : Cursor) : Option (Value × Cursor) :=
  (words.find? fun w => w.1.toList.isPrefixOf c.rest).map fun w =>
    (w.2, c.skip w.1.length)

mutual

/-- A value of any shape. -/
def value : Nat → Nat → Cursor → Except Malformed (Value × Cursor)
  | 0, _, c => c.fail .noValue
  | fuel + 1, room, c =>
      match c.rest with
      | '"' :: _ => (string c).map fun (s, c) => (.str s, c)
      | '\x7b' :: _ =>
          if room = 0 then c.fail .tooDeep
          else do
            let c := (c.skip 1).skipGaps
            match c.rest with
            | '\x7d' :: _ => return (.object [], c.skip 1)
            | _ =>
                let (ms, c) ← members fuel (room - 1) c
                return (.object (Members.ofPairs ms), c)
      | '[' :: _ =>
          if room = 0 then c.fail .tooDeep
          else do
            let c := (c.skip 1).skipGaps
            match c.rest with
            | ']' :: _ => return (.list [], c.skip 1)
            | _ =>
                let (vs, c) ← items fuel (room - 1) c
                return (.list vs, c)
      | _ =>
          match word? c with
          | some found => .ok found
          | none => do
              match ← number? c with
              | some found => return found
              | none => c.fail .noValue

/-- The items of a list, up to its closing bracket. -/
def items : Nat → Nat → Cursor → Except Malformed (List Value × Cursor)
  | 0, _, c => c.fail .noValue
  | fuel + 1, room, c => do
      let (v, c) ← value fuel room c
      let c := c.skipGaps
      match c.rest with
      | ']' :: _ => return ([v], c.skip 1)
      | ',' :: _ =>
          let (vs, c) ← items fuel room (c.skip 1).skipGaps
          return (v :: vs, c)
      | _ => c.fail .noComma

/-- The members of an object, up to its closing brace. -/
def members : Nat → Nat → Cursor → Except Malformed (Members × Cursor)
  | 0, _, c => c.fail .noValue
  | fuel + 1, room, c => do
      match c.rest with
      | '"' :: _ =>
          let (name, c) ← string c
          let c := c.skipGaps
          match c.rest with
          | ':' :: _ =>
              let (v, c) ← value fuel room (c.skip 1).skipGaps
              let c := c.skipGaps
              match c.rest with
              | '\x7d' :: _ => return ([(name, v)], c.skip 1)
              | ',' :: _ =>
                  let (ms, c) ← members fuel room (c.skip 1).skipGaps
                  return ((name, v) :: ms, c)
              | _ => c.fail .noComma
          | _ => c.fail .noColon
      | _ => c.fail .noName

end

/-- How deep lists and objects may be nested. -/
def nestingLimit : Nat := 985

/-- A whole text as one value.  Between two steps that take no character
    there is one that takes a bracket, so twice the length is enough. -/
def read (s : String) : Except Malformed Value :=
  let cs := s.toList
  if cs.head? = some '\uFEFF' then .error ⟨.byteOrderMark, 0⟩
  else do
    let (v, c) ← value (2 * cs.length + 2) nestingLimit
      (Cursor.mk cs 0).skipGaps
    let c := c.skipGaps
    if c.rest = [] then return v else c.fail .extraData

/-- What a complaint begins with. -/
def Problem.message : Problem → String
  | byteOrderMark => "Unexpected UTF-8 BOM (decode using utf-8-sig)"
  | noValue => "Expecting value"
  | extraData => "Extra data"
  | noName => "Expecting property name enclosed in double quotes"
  | noColon => "Expecting ':' delimiter"
  | noComma => "Expecting ',' delimiter"
  | openString => "Unterminated string starting at"
  | badEscape => "Invalid \\escape"
  | badUnicodeEscape => "Invalid \\uXXXX escape"
  | controlCharacter => "Invalid control character at"
  | tooManyDigits digits =>
      "Exceeds the limit (4300 digits) for integer string conversion: value has "
        ++ toString digits
        ++ " digits; use sys.set_int_max_str_digits() to increase the limit"
  | tooDeep => "Nested too deep"

/-- A complaint about a text, with line and column counted from one.  Too
    many digits are reported without a place. -/
def Malformed.message (m : Malformed) (text : String) : String :=
  match m.problem with
  | .tooManyDigits _ => m.problem.message
  | p =>
      let before := text.toList.take m.offset
      let line := before.count '\n' + 1
      let column := (before.reverse.takeWhile (· ≠ '\n')).length + 1
      p.message ++ ": line " ++ toString line ++ " column "
        ++ toString column ++ " (char " ++ toString m.offset ++ ")"

end Json

end BlockStage
