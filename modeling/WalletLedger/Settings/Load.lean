import WalletLedger.Settings.Value
import WalletLedger.Toml.Document

/-!
Loading the settings: from the file of defaults, the file of the mode that the program runs in, and
the environment, each laid over the one before. Files may be missing but not malformed. Variables
stand under a common name and show by two underscores where a section ends.
-/
namespace WalletLedger

structure SettingsSource where
  files : List (String × String)
  environment : List (String × String)

namespace SettingsSource

open SettingValue

/-- The text of a file named with or without its ending. A file of that very name whose ending is
another is not read. -/
def file? (s : SettingsSource) (name : String) : Option String :=
  match lookUp? name s.files with
  | some content =>
    if name.endsWith ".toml" ∧ 5 < name.length then some content else none
  | none => lookUp? (name ++ ".toml") s.files

def mode (s : SettingsSource) : String := (lookUp? "RUN_MODE" s.environment).getD "development"

/-- The letters of a name made small; the sign of the kelvin is a capital K. -/
def smallChars (s : String) : List Char :=
  s.toList.map fun c => if c = '\u212a' then 'k' else c.toLower

def dotted : List Char → List Char
  | '_' :: '_' :: rest => '.' :: dotted rest
  | c :: rest => c :: dotted rest
  | [] => []

/-- The path that a name with points stands for. A name that does not divide into plain parts
stands for itself. -/
def pathOf (name : String) : List String :=
  let parts := name.splitOn "."
  let plain (part : String) : Bool := !part.isEmpty && part.all Toml.isBare
  if parts.all plain then parts else [name]

def commonName : List Char := "paycore__".toList

def variablePath? (name : String) : Option (List String) :=
  let name := smallChars name
  if commonName.isPrefixOf name then
    some (pathOf (String.ofList (dotted (name.drop commonName.length))))
  else none

def realOf? (cs : List Char) : Option Real64 := do
  let (negative, cs) := Toml.splitSign cs
  let word := cs.map Char.toLower
  if word = "inf".toList ∨ word = "infinity".toList then return .infinite negative
  if word = "nan".toList then return .notANumber
  let mark : Char → Bool := fun c => c = 'e' || c = 'E'
  let mantissa := cs.takeWhile (!mark ·)
  let whole := mantissa.takeWhile (· ≠ '.')
  let fraction := (mantissa.dropWhile (· ≠ '.')).drop 1
  let _ ← readNat? (whole ++ fraction)
  match cs.dropWhile (!mark ·) with
  | [] => return .ofDecimal negative whole fraction 0
  | _ :: power =>
    let (down, ds) := Toml.splitSign power
    let e ← readNat? ds
    return .ofDecimal negative whole fraction (if down then -(e : Int) else e)

def wholeOf? (cs : List Char) : Option Int := do
  let (negative, ds) := Toml.splitSign cs
  let n ← readNat? ds
  signedWord? (if negative then -(n : Int) else n)

def variableValue (s : String) : SettingValue :=
  let word := s.map Char.toLower
  if word = "true" then .flag true
  else if word = "false" then .flag false
  else match wholeOf? s.toList, realOf? s.toList with
    | some n, _ => .whole n
    | none, some r => .real r
    | none, none => .text s

def layFile (s : SettingsSource) (name : String) (old : SettingValue) : Option SettingValue :=
  match s.file? name with
  | none => some old
  | some content =>
    (Toml.ofText? content).map fun ms =>
      ms.foldl (fun old m => laidOverAt m.2 (pathOf m.1) (some old)) old

def layVariables (s : SettingsSource) (old : SettingValue) : SettingValue :=
  s.environment.foldl (fun old v =>
    match variablePath? v.1 with
    | some path => laidOverAt (variableValue v.2) path (some old)
    | none => old) old

def load? (s : SettingsSource) : Option Settings := do
  let defaults ← s.layFile "default" (.table [])
  let all ← s.layFile s.mode defaults
  SettingValue.form.settings? (s.layVariables all)

end SettingsSource

end WalletLedger
