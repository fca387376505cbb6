import FormatScan.Json.Real
import FormatScan.Json.Value

/-!
# JSON tokens

A JSON text is a sequence of brackets, separators, words, numbers and strings
with blanks between them. Splitting a text into tokens checks the spelling of
each. A string may still escape code units that are no characters, and a number
may still be too large to have a value; a text that only passes over them is no
worse for it, so that both are kept as the absence of a value.
-/

namespace FormatScan.Json

/-- A token of a JSON text. -/
inductive Token where
  | openArray | closeArray | openObject | closeObject | comma | colon
  /-- One of the three words. -/
  | word (value : Json)
  /-- A number, if it has a value. -/
  | number (value : Option Json)
  /-- A string, if it consists of characters. -/
  | string (value : Option String)

/-- A code unit of a written string: a character as it stands, or one given by
four hexadecimal digits. -/
inductive CodeUnit where
  | plain (c : Char)
  | escaped (code : Nat)
deriving DecidableEq, Repr

/-- The value of a hexadecimal digit of either case. -/
def hexValue? (c : Char) : Option Nat :=
  if '0' ≤ c && c ≤ '9' then some (c.toNat - '0'.toNat)
  else if 'a' ≤ c && c ≤ 'f' then some (c.toNat - 'a'.toNat + 10)
  else if 'A' ≤ c && c ≤ 'F' then some (c.toNat - 'A'.toNat + 10)
  else none

/-- The value of four hexadecimal digits. -/
def hexValue4? (a b c d : Char) : Option Nat :=
  match hexValue? a, hexValue? b, hexValue? c, hexValue? d with
  | some a, some b, some c, some d => some (((a * 16 + b) * 16 + c) * 16 + d)
  | _, _, _, _ => none

/-- The character that a backslash and a letter stand for. -/
def simpleEscape? (c : Char) : Option Char :=
  match c with
  | '"' => some '"'
  | '\\' => some '\\'
  | '/' => some '/'
  | 'b' => some '\x08'
  | 'f' => some '\x0c'
  | 'n' => some '\n'
  | 'r' => some '\r'
  | 't' => some '\t'
  | _ => none

/-- Read the code units of a string up to its closing quote, and the text behind
it. -/
def readUnits : List Char → Option (List CodeUnit × List Char)
  | [] => none
  | '"' :: rest => some ([], rest)
  | '\\' :: 'u' :: a :: b :: c :: d :: rest =>
    match hexValue4? a b c d, readUnits rest with
    | some code, some (units, after) => some (.escaped code :: units, after)
    | _, _ => none
  | '\\' :: c :: rest =>
    match simpleEscape? c, readUnits rest with
    | some c, some (units, after) => some (.plain c :: units, after)
    | _, _ => none
  | c :: rest =>
    if c.toNat < 0x20 || c == '\\' then none
    else
      match readUnits rest with
      | some (units, after) => some (.plain c :: units, after)
      | none => none

/-- The characters of some code units. Two escaped units of a surrogate pair
stand for one character, and half a pair stands for none. -/
def charsOfUnits : List CodeUnit → Option (List Char)
  | [] => some []
  | .plain c :: rest => (charsOfUnits rest).map (c :: ·)
  | .escaped high :: .escaped low :: rest =>
    if 0xD800 ≤ high && high < 0xDC00 then
      if 0xDC00 ≤ low && low < 0xE000 then
        let code := 0x10000 + (high - 0xD800) * 0x400 + (low - 0xDC00)
        (charsOfUnits rest).map (Char.ofNat code :: ·)
      else none
    else if 0xDC00 ≤ high && high < 0xE000 then none
    else (charsOfUnits (.escaped low :: rest)).map (Char.ofNat high :: ·)
  | .escaped code :: rest =>
    if 0xD800 ≤ code && code < 0xE000 then none
    else (charsOfUnits rest).map (Char.ofNat code :: ·)

/-- The spelling of a number. -/
structure NumberText where
  /-- A minus sign leads. -/
  negative : Bool
  /-- The digits in front of the point. -/
  whole : List Nat
  /-- The digits behind the point. -/
  fraction : List Nat := []
  /-- The sign and the digits of the exponent, if there is one. -/
  exponent : Option (Bool × List Nat) := none
deriving DecidableEq, Repr

/-- The number that a list of decimal digits spells. -/
def natOfDigits (digits : List Nat) : Nat := digits.foldl (fun n d => n * 10 + d) 0

/-- The greatest magnitude of an exponent that is taken as it stands. -/
def exponentLimit : Nat := 2147483647

/-- The value of a number. A plain integer that fits a word is an integer,
except for a negative zero; all else is a double, unless it is too large for
one. -/
def NumberText.value? (n : NumberText) : Option Json :=
  let magnitude := natOfDigits n.whole
  let asReal (exponent : Int) := (Real.ofDigits? n.negative n.whole n.fraction exponent).map Json.real
  match n.exponent with
  | some (negative, digits) =>
    let power := natOfDigits digits
    if exponentLimit < power then
      if negative || natOfDigits (n.whole ++ n.fraction) == 0 then
        some (.real (if n.negative then Real.signBit else 0))
      else none
    else asReal (if negative then -(power : Int) else power)
  | none =>
    if !n.fraction.isEmpty then asReal 0
    else
      let value : Int := if n.negative then -(magnitude : Int) else magnitude
      if n.negative && magnitude == 0 then some (.real Real.signBit)
      else
        match JsonInteger.ofInt? value with
        | some i => some (.integer i)
        | none => asReal 0

/-- The leading decimal digits of a text, and what follows them. -/
def readDigits : List Char → List Nat × List Char
  | [] => ([], [])
  | c :: rest =>
    if c.isDigit then
      let read := readDigits rest
      ((c.toNat - '0'.toNat) :: read.1, read.2)
    else ([], c :: rest)

/-- The digits behind a point, if there is one; a point needs a digit. -/
def readFraction : List Char → Option (List Nat × List Char)
  | '.' :: rest =>
    let read := readDigits rest
    if read.1.isEmpty then none else some read
  | text => some ([], text)

/-- The sign of an exponent, if there is one. -/
def readExponentSign : List Char → Bool × List Char
  | '+' :: rest => (false, rest)
  | '-' :: rest => (true, rest)
  | text => (false, text)

/-- The exponent, if there is one; it needs a digit. -/
def readExponent (text : List Char) : Option (Option (Bool × List Nat) × List Char) :=
  match text with
  | [] => some (none, [])
  | c :: rest =>
    if c == 'e' || c == 'E' then
      let signed := readExponentSign rest
      let read := readDigits signed.2
      if read.1.isEmpty then none else some (some (signed.1, read.1), read.2)
    else some (none, c :: rest)

/-- Read a number at the front of a text, from behind its sign. A zero in front
of other digits is not allowed. -/
def readUnsigned (negative : Bool) (text : List Char) : Option (NumberText × List Char) :=
  let whole := readDigits text
  if whole.1.isEmpty || (whole.1.head? == some 0 && whole.1.length != 1) then none
  else
    match readFraction whole.2 with
    | none => none
    | some (fraction, afterFraction) =>
      match readExponent afterFraction with
      | none => none
      | some (exponent, after) => some (⟨negative, whole.1, fraction, exponent⟩, after)

/-- The token of a single character. -/
def punctuation? (c : Char) : Option Token :=
  match c with
  | '[' => some .openArray
  | ']' => some .closeArray
  | '{' => some .openObject
  | '}' => some .closeObject
  | ',' => some .comma
  | ':' => some .colon
  | _ => none

/-- The blanks between tokens. -/
def isBlank (c : Char) : Bool := c == ' ' || c == '\t' || c == '\n' || c == '\r'

/-- Read the token at the front of a text that starts with no blank, and the
text behind it. -/
def readToken : List Char → Option (Token × List Char)
  | [] => none
  | 'n' :: 'u' :: 'l' :: 'l' :: rest => some (.word .null, rest)
  | 't' :: 'r' :: 'u' :: 'e' :: rest => some (.word (.bool true), rest)
  | 'f' :: 'a' :: 'l' :: 's' :: 'e' :: rest => some (.word (.bool false), rest)
  | '"' :: rest =>
    (readUnits rest).map fun (units, after) =>
      (.string ((charsOfUnits units).map String.ofList), after)
  | '-' :: rest => (readUnsigned true rest).map fun (n, after) => (.number n.value?, after)
  | c :: rest =>
    match punctuation? c with
    | some token => some (token, rest)
    | none => (readUnsigned false (c :: rest)).map fun (n, after) => (.number n.value?, after)

/-- A string uses up at least its closing quote. -/
theorem length_lt_of_readUnits {text after : List Char} {units : List CodeUnit}
    (h : readUnits text = some (units, after)) : after.length < text.length := by
  fun_induction readUnits text generalizing units after with
  | case1 => simp at h
  | case2 => simp_all
  | case3 a b c d rest code units' after' hr _ ih =>
    cases h
    have := ih hr
    simp only [List.length_cons]
    omega
  | case4 => simp at h
  | case5 c rest _ c' units' after' hr _ ih =>
    cases h
    have := ih hr
    simp only [List.length_cons]
    omega
  | case6 => simp at h
  | case7 => simp at h
  | case8 c rest _ _ _ _ units' after' hr ih =>
    cases h
    have := ih hr
    simp only [List.length_cons]
    omega
  | case9 => simp at h

/-- Reading digits never adds to a text. -/
theorem length_readDigits_le (text : List Char) :
    (readDigits text).2.length ≤ text.length := by
  induction text with
  | nil => simp [readDigits]
  | cons c rest ih =>
    rw [readDigits]
    split
    · simp only [List.length_cons]
      omega
    · simp

/-- Reading a digit uses it up. -/
theorem length_readDigits_lt {text : List Char} (h : (readDigits text).1 ≠ []) :
    (readDigits text).2.length < text.length := by
  cases text with
  | nil => simp [readDigits] at h
  | cons c rest =>
    rw [readDigits] at h ⊢
    split
    · have := length_readDigits_le rest
      simp only [List.length_cons]
      omega
    · rename_i hc
      simp [hc] at h

/-- Reading the digits behind a point never adds to a text. -/
theorem length_le_of_readFraction {text after : List Char} {digits : List Nat}
    (h : readFraction text = some (digits, after)) : after.length ≤ text.length := by
  unfold readFraction at h
  split at h
  · rename_i rest
    have := length_readDigits_le rest
    dsimp only at h
    split at h
    · simp at h
    · rw [Option.some.inj h] at this
      exact Nat.le_succ_of_le this
  · cases h
    exact Nat.le_refl _

/-- Reading the sign of an exponent never adds to a text. -/
theorem length_readExponentSign_le (text : List Char) :
    (readExponentSign text).2.length ≤ text.length := by
  unfold readExponentSign
  split <;> simp

/-- Reading an exponent never adds to a text. -/
theorem length_le_of_readExponent {text after : List Char} {exponent : Option (Bool × List Nat)}
    (h : readExponent text = some (exponent, after)) : after.length ≤ text.length := by
  unfold readExponent at h
  split at h
  · cases h
    simp
  · rename_i c rest
    split at h
    · dsimp only at h
      split at h
      · simp at h
      · cases h
        have := length_readDigits_le (readExponentSign rest).2
        have := length_readExponentSign_le rest
        simp only [List.length_cons]
        omega
    · cases h
      exact Nat.le_refl _

/-- A number uses up at least one digit. -/
theorem length_lt_of_readUnsigned {negative : Bool} {text after : List Char} {n : NumberText}
    (h : readUnsigned negative text = some (n, after)) : after.length < text.length := by
  unfold readUnsigned at h
  dsimp only at h
  split at h
  · simp at h
  · rename_i hw
    have hne : (readDigits text).1 ≠ [] := by
      intro he
      simp [he] at hw
    have hlt := length_readDigits_lt hne
    split at h
    · simp at h
    · rename_i fraction afterFraction hf
      have := length_le_of_readFraction hf
      split at h
      · simp at h
      · rename_i exponent after' he
        have := length_le_of_readExponent he
        cases h
        omega

/-- A token uses up at least one character. -/
theorem length_lt_of_readToken {text after : List Char} {token : Token}
    (h : readToken text = some (token, after)) : after.length < text.length := by
  unfold readToken at h
  split at h
  · simp at h
  · cases h
    simp only [List.length_cons]
    omega
  · cases h
    simp only [List.length_cons]
    omega
  · cases h
    simp only [List.length_cons]
    omega
  · rename_i rest
    obtain ⟨⟨units, rest'⟩, hr, he⟩ := Option.map_eq_some_iff.1 h
    cases he
    have := length_lt_of_readUnits hr
    simp only [List.length_cons]
    omega
  · rename_i rest
    obtain ⟨⟨n, rest'⟩, hr, he⟩ := Option.map_eq_some_iff.1 h
    cases he
    have := length_lt_of_readUnsigned hr
    simp only [List.length_cons]
    omega
  · rename_i c rest _ _ _ _ _
    split at h
    · cases h
      simp
    · obtain ⟨⟨n, rest'⟩, hr, he⟩ := Option.map_eq_some_iff.1 h
      cases he
      exact length_lt_of_readUnsigned hr

/-- Split a text into tokens, when each of them is well spelled. -/
def tokens? (text : List Char) : Option (List Token) :=
  match text with
  | [] => some []
  | c :: rest =>
    if isBlank c then tokens? rest
    else
      match _h : readToken (c :: rest) with
      | none => none
      | some (token, after) => (tokens? after).map (token :: ·)
termination_by text.length
decreasing_by
  · simp
  · exact length_lt_of_readToken _h

end FormatScan.Json
