import Wavefront.Json.Token
import Wavefront.Text.Quoted
import Wavefront.FloatControl

/-!
# Settings

Three switches, each with a default. They are read from a JSON text, an object that names some of
them or a list that gives the first ones in order, and then overridden one by one from the
environment.

* `Config.ofJson` reads the text. The first thing wrong in it, from left to right, decides the
  problem.
* `Config.applyEnv` looks up an override for two of the switches, in a fixed order. The first value
  that is no flag ends it, and what was set before stays set.
-/

namespace Wavefront

/-- The settings. -/
structure Config where
  /-- refuse indexed reads that name no candidate in every build -/
  strictMaskedRead : Bool
  /-- let guards flush subnormal values -/
  flushDenormals : Bool
  /-- log the features of the processor once -/
  logFeatures : Bool
deriving DecidableEq

namespace Config

/-- The settings that hold unless something else is said. -/
def defaults : Config := ⟨false, false, true⟩

/-! ## Switches -/

/-- The name of one switch. -/
inductive Switch
  | strictMaskedRead
  | flushDenormals
  | logFeatures
deriving DecidableEq

/-- The switches in order. -/
def Switch.all : List Switch := [strictMaskedRead, flushDenormals, logFeatures]

/-- The name of a switch in texts. -/
def Switch.name : Switch → String
  | strictMaskedRead => "strict_masked_read"
  | flushDenormals => "flush_denormals"
  | logFeatures => "log_features"

/-- The switch with that name. -/
def Switch.named? (name : String) : Option Switch := all.find? fun s => s.name == name

/-- The position of a switch. -/
def get (c : Config) : Switch → Bool
  | .strictMaskedRead => c.strictMaskedRead
  | .flushDenormals => c.flushDenormals
  | .logFeatures => c.logFeatures

/-- Moves a switch. -/
def set (c : Config) (s : Switch) (b : Bool) : Config :=
  match s with
  | .strictMaskedRead => { c with strictMaskedRead := b }
  | .flushDenormals => { c with flushDenormals := b }
  | .logFeatures => { c with logFeatures := b }

/-! ## Writing -/

/-- The text for a log. -/
def text (c : Config) : String :=
  "Config \x7b "
    ++ ", ".intercalate (Switch.all.map fun s => s.name ++ ": " ++ toString (c.get s)) ++ " \x7d"

/-- The JSON text. -/
def toJson (c : Config) : String :=
  "\x7b" ++ ",".intercalate (Switch.all.map fun s => "\"" ++ s.name ++ "\":" ++ toString (c.get s))
    ++ "\x7d"

/-! ## Reading JSON -/

open Json

/-- Reads a truth value. -/
def readFlag : List Token → Except Problem (Bool × List Token)
  | [] => .error .truncated
  | .keyword (.ok .true) :: rest => .ok (true, rest)
  | .keyword (.ok .false) :: rest => .ok (false, rest)
  | token :: _ => .error token.unwanted

/-- Reads the value of a key: moves the switch that the key names, or skips the value if there is
none. A switch may be named once. Answers how many tokens the value takes as well. -/
def readMember (c : Config) (seen : List Switch) (key : String) (tokens : List Token) :
    Except Problem (Config × List Switch × Nat) := do
  let switch := Switch.named? key
  -- a switch that is named again is refused before its value is looked at
  if switch.any seen.contains then throw .unsuitable
  let rest ← match tokens with
    | .colon :: rest => pure rest
    | [] => throw .truncated
    | _ => throw .malformed
  match switch with
  | some s => do
    let (b, _) ← readFlag rest
    return (c.set s b, s :: seen, 2)
  | none => return (c, seen, 1 + (← skipValue rest))

/-- Reads the members of an object up to its end. -/
def readMembers (c : Config) (seen : List Switch) (isFirst : Bool) :
    List Token → Except Problem (Config × List Token)
  | [] => .error .truncated
  | .closing .object :: rest => .ok (c, rest)
  | .comma :: rest =>
    if isFirst then .error .malformed
    else
      match rest with
      | .string key _ :: rest => do
        let (c, seen, size) ← readMember c seen (← key) rest
        readMembers c seen false (rest.drop size)
      | [] => .error .truncated
      | _ => .error .malformed
  | .string key _ :: rest =>
    if isFirst then do
      let (c, seen, size) ← readMember c seen (← key) rest
      readMembers c seen false (rest.drop size)
    else .error .malformed
  | _ => .error .malformed
termination_by tokens => tokens.length
decreasing_by all_goals simp only [List.length_drop, List.length_cons]; omega

/-- Reads the elements of a list for the given switches. Where the list ends early the remaining
switches stay; the end is left to be read. -/
def readElements (c : Config) (isFirst : Bool) :
    List Switch → List Token → Except Problem (Config × List Token)
  | [], tokens => .ok (c, tokens)
  | _ :: _, [] => .error .truncated
  | _ :: _, .closing .list :: rest => .ok (c, .closing .list :: rest)
  | s :: switches, token :: rest =>
    if isFirst then do
      let (b, rest) ← readFlag (token :: rest)
      readElements (c.set s b) false switches rest
    else
      match token, rest with
      | .comma, .closing .list :: _ => .error .malformed
      | .comma, rest => do
        let (b, rest) ← readFlag rest
        readElements (c.set s b) false switches rest
      | _, _ => .error .malformed

/-- Reads the end of a list. -/
def readListEnd : List Token → Except Problem (List Token)
  | .closing .list :: rest => .ok rest
  | [] => .error .truncated
  | _ => .error .malformed

/-- Reads settings at the front. -/
def readTokens : List Token → Except Problem (Config × List Token)
  | [] => .error .truncated
  | .opening .object :: rest => readMembers defaults [] true rest
  | .opening .list :: rest => do
    let (c, rest) ← readElements defaults true Switch.all rest
    return (c, ← readListEnd rest)
  | token :: _ => .error token.unwanted

/-- Reads settings. Nothing may follow them. -/
def ofJson (text : String) : Except Problem Config := do
  let (c, rest) ← readTokens (tokens text.toList)
  if rest.isEmpty then return c else throw .malformed

/-! ## Overrides -/

/-- The variable that names the file of settings. -/
def pathVariable : String := "LOCKSTEP_CONFIG"

/-- The variables that override a switch, with their switches, in the order they are looked up. -/
def overrides : List (String × Switch) :=
  [("LOCKSTEP_STRICT_MASKED_READ", .strictMaskedRead),
    ("LOCKSTEP_FLUSH_DENORMALS", .flushDenormals)]

/-- A variable whose value is no flag. -/
structure BadFlag where
  key : String
  /-- the value, trimmed and in lower case -/
  value : String
deriving DecidableEq

/-- The text of a bad flag. -/
def BadFlag.message (e : BadFlag) : String :=
  e.key ++ ": expected a boolean, got " ++ Text.quoted e.value

/-- What a flag is looked at as: without blanks around it, ASCII letters in lower case. -/
def canonicalFlag (value : String) : String :=
  String.ofList ((Text.trim value.toList).map Char.toLower)

/-- Reads a flag. The empty flag is false. -/
def parseFlag (key value : String) : Except BadFlag Bool :=
  let flag := canonicalFlag value
  if ["1", "true", "yes", "on"].contains flag then .ok true
  else if ["0", "false", "no", "off", ""].contains flag then .ok false
  else .error ⟨key, flag⟩

/-- Overrides switches from variables, one after the other. Answers the settings as they are in the
end, and the bad flag that ended it. -/
def applyOverrides (lookup : String → Option String) :
    List (String × Switch) → Config → Config × Option BadFlag
  | [], c => (c, none)
  | (key, s) :: rest, c =>
    match lookup key with
    | none => applyOverrides lookup rest c
    | some value =>
      match parseFlag key value with
      | .ok b => applyOverrides lookup rest (c.set s b)
      | .error e => (c, some e)

/-- Overrides switches from the environment. -/
def applyEnv (c : Config) (lookup : String → Option String) : Config × Option BadFlag :=
  applyOverrides lookup overrides c

/-! ## Guards -/

/-- Creates a guard if these settings want flushing, and an empty one otherwise. -/
def fastMath (c : Config) (control : FloatControl) : FloatControl :=
  control.enterIf c.flushDenormals

end Config

end Wavefront
