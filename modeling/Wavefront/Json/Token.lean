/-!
# Tokens of JSON texts

A text is cut into tokens once, from left to right. What is wrong with a token is kept in it,
because how wrong it is depends on who reads it: a value that is only skipped may hold numbers of
any size and halves of surrogate pairs, a value that is read may not. The token at which the text
cannot be cut any further is the last one.

A reader that fails says which of three problems the text has: it is *malformed*, it holds a value
that is *unsuitable* where it stands, or it is *truncated*.
-/

namespace Wavefront.Json

/-- Why a text was refused. -/
inductive Problem
  /-- the text is no JSON -/
  | malformed
  /-- a value has the wrong type or content -/
  | unsuitable
  /-- the text ends too soon -/
  | truncated
deriving DecidableEq

/-- The name of a problem's category. -/
def Problem.category : Problem → String
  | malformed => "syntax"
  | unsuitable => "data"
  | truncated => "eof"

/-- The two kinds of brackets. -/
inductive Enclosure
  | list
  | object
deriving DecidableEq

/-- The words of the language. -/
inductive Keyword
  | null
  | true
  | false
deriving DecidableEq

/-- A token. -/
inductive Token
  | opening (e : Enclosure)
  | closing (e : Enclosure)
  | comma
  | colon
  | keyword (k : Except Problem Keyword)
  /-- a number: the problem it is where another value is wanted, and what skipping it meets -/
  | number (wanted : Problem) (skipped : Except Problem Unit)
  /-- a string: its content, and what skipping it meets -/
  | string (content : Except Problem String) (skipped : Except Problem Unit)
  /-- a character that starts no token -/
  | stray

/-! ## Characters -/

/-- The four characters that separate tokens. -/
def isBlank (c : Char) : Bool := c == ' ' || c == '\n' || c == '\t' || c == '\r'

/-- The value of a hexadecimal digit. -/
def hexDigit (c : Char) : Option Nat :=
  if '0' ≤ c && c ≤ '9' then some (c.toNat - 48)
  else if 'a' ≤ c && c ≤ 'f' then some (c.toNat - 87)
  else if 'A' ≤ c && c ≤ 'F' then some (c.toNat - 55)
  else none

/-- The number written with four hexadecimal digits. -/
def hexUnit (a b c d : Char) : Option Nat := do
  return (((← hexDigit a) * 16 + (← hexDigit b)) * 16 + (← hexDigit c)) * 16 + (← hexDigit d)

/-- The character of a one-letter escape. -/
def simpleEscape (c : Char) : Option Char :=
  match c with
  | '"' => some '"'
  | '\\' => some '\\'
  | '/' => some '/'
  | 'b' => some '\x08'
  | 'f' => some '\x0c'
  | 'n' => some '\n'
  | 'r' => some '\r'
  | 't' => some '\t'
  | _ => none

/-- The first unit of a surrogate pair. -/
def isHighSurrogate (u : Nat) : Bool := 0xd800 ≤ u && u < 0xdc00

/-- The second unit of a surrogate pair. -/
def isLowSurrogate (u : Nat) : Bool := 0xdc00 ≤ u && u < 0xe000

/-- The character of a surrogate pair. -/
def surrogatePair (high low : Nat) : Char :=
  Char.ofNat (0x10000 + (high - 0xd800) * 0x400 + (low - 0xdc00))

/-- What is wrong with an escape of four digits that does not have them: the text is truncated if it
has less than four more bytes, and malformed otherwise. -/
def badUnit (cs : List Char) : Problem :=
  if (String.ofList cs).utf8ByteSize < 4 then .truncated else .malformed

/-! ## Strings -/

/-- How many characters a string takes behind its opening quote, by the rules for skipping. -/
def stringSize : List Char → Except Problem Nat
  | [] => .error .truncated
  | '"' :: _ => .ok 1
  | '\\' :: 'u' :: a :: b :: c :: d :: rest =>
    match hexUnit a b c d with
    | some _ => (stringSize rest).map (· + 6)
    | none => .error .malformed
  | '\\' :: 'u' :: rest => .error (badUnit rest)
  | '\\' :: c :: rest =>
    match simpleEscape c with
    | some _ => (stringSize rest).map (· + 2)
    | none => .error .malformed
  | c :: rest =>
    if c == '\\' then .error .truncated
    else if c.toNat < 0x20 then .error .malformed
    else (stringSize rest).map (· + 1)

/-- The characters of a string behind its opening quote. Surrogates must come in pairs. -/
def stringContent : List Char → Except Problem (List Char)
  | [] => .error .truncated
  | '"' :: _ => .ok []
  | '\\' :: 'u' :: a :: b :: c :: d :: rest =>
    match hexUnit a b c d with
    | none => .error .malformed
    | some u =>
      if isLowSurrogate u then .error .malformed
      else if isHighSurrogate u then
        match rest with
        | [] => .error .truncated
        | ['\\'] => .error .truncated
        | '\\' :: 'u' :: e :: f :: g :: h :: rest =>
          match hexUnit e f g h with
          | none => .error .malformed
          | some v =>
            if isLowSurrogate v then (stringContent rest).map (surrogatePair u v :: ·)
            else .error .malformed
        | '\\' :: 'u' :: rest => .error (badUnit rest)
        | _ => .error .malformed
      else (stringContent rest).map (Char.ofNat u :: ·)
  | '\\' :: 'u' :: rest => .error (badUnit rest)
  | '\\' :: c :: rest =>
    match simpleEscape c with
    | some c => (stringContent rest).map (c :: ·)
    | none => .error .malformed
  | c :: rest =>
    if c == '\\' then .error .truncated
    else if c.toNat < 0x20 then .error .malformed
    else (stringContent rest).map (c :: ·)

/-! ## Numbers -/

/-- A number as it is written. -/
structure Numeral where
  whole : List Char
  fraction : List Char
  exponentNegative : Bool
  exponent : List Char
  /-- how many characters it takes -/
  size : Nat

/-- Decimal digits at the front, at least one of them. -/
def someDigits (cs : List Char) : Except Problem (List Char) :=
  match cs.takeWhile Char.isDigit with
  | [] => .error (if cs.isEmpty then .truncated else .malformed)
  | digits => .ok digits

/-- Reads a number at the front: a sign, an integer without leading zeros, a fraction and an
exponent. -/
def scanNumeral (cs : List Char) : Except Problem Numeral := do
  let rest := match cs with
    | '-' :: rest => rest
    | _ => cs
  let whole ← someDigits rest
  -- a leading zero stands alone
  if whole.head? == some '0' && whole.length != 1 then throw .malformed
  let rest := rest.drop whole.length
  let (fraction, rest) ← match rest with
    | '.' :: rest => do
      let fraction ← someDigits rest
      pure (fraction, rest.drop fraction.length)
    | _ => pure ([], rest)
  let hasExponent := rest.head? == some 'e' || rest.head? == some 'E'
  let (exponentNegative, digits) := match rest.drop 1 with
    | '-' :: rest => (true, rest)
    | '+' :: rest => (false, rest)
    | rest => (false, rest)
  let exponent ← if hasExponent then someDigits digits else pure []
  let rest := if hasExponent then digits.drop exponent.length else rest
  return ⟨whole, fraction, exponentNegative, exponent, cs.length - rest.length⟩

/-- Appends decimal digits to a number as long as it stays below `2^64`, and counts them. -/
def takeDigits : (significand : Nat) → (count : Nat) → List Char → Nat × Nat
  | significand, count, [] => (significand, count)
  | significand, count, c :: cs =>
    let next := significand * 10 + (c.toNat - 48)
    if next < 0x10000000000000000 then takeDigits next (count + 1) cs else (significand, count)

/-- Beyond double precision: the leading digits, as many as fit 64 bits, times the power of ten that
is left, computed in double precision, are infinite. -/
def Numeral.isTooLarge (n : Numeral) : Bool :=
  let (significand, used) := takeDigits 0 0 n.whole
  let (significand, usedFraction) := takeDigits significand 0 n.fraction
  let written : Int := (takeExponent 0 n.exponent : Nat)
  let exponent : Int := (n.whole.length : Int) - used - usedFraction
    + (if n.exponentNegative then -written else written)
  if significand = 0 || exponent < 0 then false
  else if 308 < exponent then true
  else (Float.ofNat significand * Float.ofScientific 1 false exponent.toNat).isInf
where
  /-- The value of decimal digits. -/
  takeExponent : Nat → List Char → Nat
    | value, [] => value
    | value, c :: cs => takeExponent (value * 10 + (c.toNat - 48)) cs

/-! ## Cutting -/

/-- The rest of a keyword whose first letter has been seen. -/
def restOfKeyword : (letters : List Char) → List Char → Except Problem Unit
  | [], _ => .ok ()
  | _ :: _, [] => .error .truncated
  | letter :: letters, c :: cs =>
    if c = letter then restOfKeyword letters cs else .error .malformed

/-- A keyword token, and how many characters it takes behind its first letter. -/
def keywordToken (k : Keyword) (letters : List Char) (cs : List Char) : Token × Option Nat :=
  match restOfKeyword letters cs with
  | .ok () => (.keyword (.ok k), some letters.length)
  | .error p => (.keyword (.error p), none)

/-- The token that starts with a character, and how many of the characters behind it it takes; no
number of them if the text cannot be cut behind it. -/
def firstToken (c : Char) (cs : List Char) : Token × Option Nat :=
  match c with
  | '{' => (.opening .object, some 0)
  | '}' => (.closing .object, some 0)
  | '[' => (.opening .list, some 0)
  | ']' => (.closing .list, some 0)
  | ',' => (.comma, some 0)
  | ':' => (.colon, some 0)
  | 'n' => keywordToken .null ['u', 'l', 'l'] cs
  | 't' => keywordToken .true ['r', 'u', 'e'] cs
  | 'f' => keywordToken .false ['a', 'l', 's', 'e'] cs
  | '"' =>
    let content := (stringContent cs).map String.ofList
    match stringSize cs with
    | .ok size => (.string content (.ok ()), some size)
    | .error p => (.string content (.error p), none)
  | _ =>
    if c == '-' || c.isDigit then
      match scanNumeral (c :: cs) with
      | .ok n =>
        (.number (if n.isTooLarge then .malformed else .unsuitable) (.ok ()), some (n.size - 1))
      | .error p => (.number p (.error .malformed), none)
    else (.stray, none)

/-- The tokens of a text. -/
def tokens : List Char → List Token
  | [] => []
  | c :: cs =>
    if isBlank c then tokens cs
    else
      match firstToken c cs with
      | (token, some size) => token :: tokens (cs.drop size)
      | (token, none) => [token]
termination_by cs => cs.length
decreasing_by
  · simp
  · simp only [List.length_drop, List.length_cons]
    omega

/-! ## Values in the wrong place -/

/-- The problem of a value that is not of the type that is wanted. Its text is looked at as far as
reading it would go. -/
def Token.unwanted : Token → Problem
  | opening _ => .unsuitable
  | keyword (.ok _) => .unsuitable
  | keyword (.error p) => p
  | number p _ => p
  | string (.ok _) _ => .unsuitable
  | string (.error p) _ => p
  | closing _ | comma | colon | stray => .malformed

/-! ## Skipping values -/

/-- What a skipped value goes on with. -/
inductive Awaited
  | value
  /-- the first element of a list, or its end -/
  | elementOrEnd
  | key
  /-- the first key of an object, or its end -/
  | keyOrEnd
  | colon
  /-- a comma, or the end of what encloses it -/
  | separator
deriving DecidableEq

/-- One token of a skipped value: what it goes on with, and inside which brackets. -/
def skipStep (stack : List Enclosure) (awaited : Awaited) (token : Token) :
    Except Problem (List Enclosure × Awaited) :=
  let atValue : Except Problem (List Enclosure × Awaited) :=
    match token with
    | .keyword (.ok _) => .ok (stack, .separator)
    | .keyword (.error p) => .error p
    | .number _ skipped => skipped.map fun _ => (stack, .separator)
    | .string _ skipped => skipped.map fun _ => (stack, .separator)
    | .opening .list => .ok (.list :: stack, .elementOrEnd)
    | .opening .object => .ok (.object :: stack, .keyOrEnd)
    | _ => .error .malformed
  let atKey : Except Problem (List Enclosure × Awaited) :=
    match token with
    | .string _ skipped => skipped.map fun _ => (stack, .colon)
    | _ => .error .malformed
  match awaited, token, stack with
  | .value, _, _ => atValue
  | .elementOrEnd, .closing .list, _ :: stack => .ok (stack, .separator)
  | .elementOrEnd, _, _ => atValue
  | .key, _, _ => atKey
  | .keyOrEnd, .closing .object, _ :: stack => .ok (stack, .separator)
  | .keyOrEnd, _, _ => atKey
  | .colon, .colon, _ => .ok (stack, .value)
  | .colon, _, _ => .error .malformed
  | .separator, .comma, .list :: _ => .ok (stack, .value)
  | .separator, .comma, .object :: _ => .ok (stack, .key)
  | .separator, .closing .list, .list :: stack => .ok (stack, .separator)
  | .separator, .closing .object, .object :: stack => .ok (stack, .separator)
  | .separator, _, _ => .error .malformed

/-- How many tokens a value takes, when what has been seen of it so far is inside the given brackets
and goes on as awaited. -/
def skipFrom : List Enclosure → Awaited → List Token → Except Problem Nat
  | [], .separator, _ => .ok 0
  | _, _, [] => .error .truncated
  | stack, awaited, token :: tokens =>
    match skipStep stack awaited token with
    | .ok (stack, awaited) => (skipFrom stack awaited tokens).map (· + 1)
    | .error p => .error p

/-- How many tokens the value at the front takes. Values may be nested to any depth. -/
def skipValue (tokens : List Token) : Except Problem Nat := skipFrom [] .value tokens

end Wavefront.Json
