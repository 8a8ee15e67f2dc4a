import AdGuardHome.Lib.Fallible
import AdGuardHome.Lib.SortedEntries

/-! Package `configmigrate`: the values of a decoded configuration and the helpers the
migrations read and move them with. A Go string is a string here with one character for
each of its bytes, and a slice has no capacity: nothing tells a nil slice from an empty one. -/
namespace AdGuardHome.Configmigrate

/-- What an `any` of the configuration holds. The keys of a map ascend, and a nil map is
`none`; `other` is a value of a type that no migration looks into, by its type and text. -/
inductive Val where
  | null
  | bool (value : Bool)
  | int (value : Int)
  | str (value : String)
  | duration (nanoseconds : Int)
  | upstreamMode (mode : String)
  | strs (values : List String)
  | arr (values : List Val)
  | obj (entries : Option (List (String × Val)))
  | other (type text : String)

/-- `yarr`. -/
abbrev YArr := List Val

/-- `yobj`. -/
abbrev YObj := Option (List (String × Val))

/-- A call ends with an error, or by a panic. -/
inductive Failure where
  | error (message : String)
  | panic
deriving DecidableEq

abbrev Go (α : Type) := Except Failure α

def fail {α : Type} (message : String) : Go α := .error (.error message)

/-- The type of a value as the verb `%T` spells it. -/
def Val.goType : Val → String
  | null => "<nil>"
  | bool _ => "bool"
  | int _ => "int"
  | str _ => "string"
  | duration _ => "timeutil.Duration"
  | upstreamMode _ => "dnsforward.UpstreamMode"
  | strs _ => "[]string"
  | arr _ => "[]interface \x7b\x7d"
  | obj _ => "map[string]interface \x7b\x7d"
  | other type _ => type

namespace YObj

def empty : YObj := some []

def lookup (obj : YObj) (key : String) : Option Val := obj.bind (List.lookup key)

/-- The assignment `obj[key] = value`. -/
def set (obj : YObj) (key : String) (value : Val) : Go YObj :=
  match obj with
  | none => .error .panic
  | some entries => .ok (some (SortedEntries.set key value entries))

/-- `delete(obj, key)`. -/
def delete (obj : YObj) (key : String) : YObj := obj.map (SortedEntries.erase key)

def ofList (entries : List (String × Val)) : YObj :=
  some (entries.foldl (fun made entry => SortedEntries.set entry.1 entry.2 made) [])

/-- The map after the map under `key` has been changed to `value` through a reference to it.
A nil map has not been changed. -/
def update (obj : YObj) (key : String) (value : YObj) : YObj :=
  match value with
  | none => obj
  | some _ => obj.map (SortedEntries.set key (.obj value))

/-- The map after the elements of the array under `key` have been changed in place. -/
def updateArr (obj : YObj) (key : String) (values : YArr) : YObj :=
  match values with
  | [] => obj
  | _ :: _ => obj.map (SortedEntries.set key (.arr values))

def isEmpty (obj : YObj) : Bool := obj.all List.isEmpty

end YObj

/-- A type argument of `fieldVal` and `moveVal`. -/
structure GoType (α : Type) where
  zero : α
  cast : Val → Option α
  box : α → Val

namespace GoType

def any : GoType Val := ⟨.null, some, id⟩

def bool : GoType Bool where
  zero := false
  cast | .bool value => some value | _ => none
  box := .bool

def int : GoType Int where
  zero := 0
  cast | .int value => some value | _ => none
  box := .int

def string : GoType String where
  zero := ""
  cast | .str value => some value | _ => none
  box := .str

def yarr : GoType YArr where
  zero := []
  cast | .arr values => some values | _ => none
  box := .arr

def yobj : GoType YObj where
  zero := none
  cast | .obj entries => some entries | _ => none
  box := .obj

end GoType

variable {α : Type}

/-- What `fieldVal` makes of a value that is there. -/
def readVal (T : GoType α) (key : String) (val : Val) : Go α :=
  match val with
  | .null => .ok T.zero
  | val =>
    match T.cast val with
    | some v => .ok v
    | none => fail ("unexpected type of \"" ++ key ++ "\": " ++ val.goType)

/-- `fieldVal`, where `none` is a missing field. -/
def fieldVal (T : GoType α) (obj : YObj) (key : String) : Go (Option α) :=
  match obj.lookup key with
  | none => .ok none
  | some val => some <$> readVal T key val

/-- The first result of `fieldVal`, where the others are ignored. -/
def fieldOrZero (T : GoType α) (obj : YObj) (key : String) : α :=
  match fieldVal T obj key with
  | .ok (some v) => v
  | _ => T.zero

/-- `moveVal` between two maps: the source and the destination afterwards. -/
def moveVal (T : GoType α) (src dst : YObj) (srcKey dstKey : String) : Go (YObj × YObj) := do
  let some newVal ← fieldVal T src srcKey | return (src, dst)
  let dst ← dst.set dstKey (T.box newVal)
  return (src.delete srcKey, dst)

/-- `moveVal` inside one map. -/
def renameVal (T : GoType α) (obj : YObj) (srcKey dstKey : String) : Go YObj := do
  let some newVal ← fieldVal T obj srcKey | return obj
  let obj ← obj.set dstKey (T.box newVal)
  return obj.delete srcKey

/-- A call of `moveVal` before its maps are known. -/
abbrev Move := YObj → YObj → Go (YObj × YObj)

def Move.val (T : GoType α) (srcKey dstKey : String) : Move :=
  fun src dst => moveVal T src dst srcKey dstKey

/-- `moveSameVal`. -/
def Move.sameVal (T : GoType α) (key : String) : Move := Move.val T key key

/-- One argument of `errors.Join`: an error does not keep the next ones from running. -/
def joinStep (state : (YObj × YObj) × List String) (move : Move) :
    Go ((YObj × YObj) × List String) :=
  match move state.1.1 state.1.2 with
  | .ok moved => .ok (moved, state.2)
  | .error (.error message) => .ok (state.1, state.2 ++ [message])
  | .error .panic => .error .panic

/-- `errors.Join` of calls of `moveVal` between the same two maps. -/
def joinMoves (moves : List Move) (src dst : YObj) : Go (YObj × YObj) := do
  let (moved, messages) ← moves.foldlM joinStep ((src, dst), [])
  if messages = [] then return moved else fail ("\n".intercalate messages)

end AdGuardHome.Configmigrate
