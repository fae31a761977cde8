import PropertyList.Calendar.Moment
import PropertyList.Node.Basic

/-!
Plain values: what programs put into property lists and get out of them. Dictionaries and records
keep their entries in order. A value of a foreign type is known by the name of its type alone. A
member of an enumeration is no text and no number, even if its class is derived from one: what is
said of members of such classes as keys, tags or payloads is left out.
-/
namespace PropertyList

/-- A class of a program: the path of the module that it is from, and its own name. -/
structure ClassName where
  path : Text
  name : Text
  deriving DecidableEq, Repr

inductive Value where
  | null
  | boolean (value : Bool)
  | integer (value : Int)
  | real (value : Binary64)
  | string (value : Text)
  | bytes (value : Bytes)
  | byteArray (value : Bytes)
  | moment (value : Moment)
  | day (value : Day)
  | list (items : List Value)
  | tuple (items : List Value)
  | dict (entries : List (Value × Value))
  | enumeration (type : ClassName) (value : Value)
  | record (type : ClassName) (fields : List (Text × Value))
  | node (node : Node)
  | foreign (typeName : Text)
  deriving Repr

instance : Inhabited Value := ⟨.null⟩

namespace Value

/-- The name of the type of a value. -/
def typeName : Value → Text
  | .null => text "NoneType"
  | .boolean _ => text "bool"
  | .integer _ => text "int"
  | .real _ => text "float"
  | .string _ => text "str"
  | .bytes _ => text "bytes"
  | .byteArray _ => text "bytearray"
  | .moment _ => text "datetime"
  | .day _ => text "date"
  | .list _ => text "list"
  | .tuple _ => text "tuple"
  | .dict _ => text "dict"
  | .enumeration type _ => type.name
  | .record type _ => type.name
  | .node n => n.title
  | .foreign typeName => typeName

/-- Foreign types that belong to the calendar. -/
def calendarTypes : List String := ["time", "timedelta"]

/-- The name of the type with the path of its module, as messages show it. The path of an enumeration
is not shown. -/
def className (value : Value) : Text :=
  let inModule (path : Text) : Text := text "<class '" ++ path ++ value.typeName ++ text "'>"
  match value with
  | .moment _ => inModule (text "datetime.")
  | .day _ => inModule (text "datetime.")
  | .foreign typeName =>
    if calendarTypes.any fun type => text type == typeName then inModule (text "datetime.")
    else inModule []
  | .node n => n.className
  | .enumeration _ _ => text "<enum '" ++ value.typeName ++ text "'>"
  | .record type _ => inModule (type.path ++ [ch '.'])
  | _ => inModule []

/-- Whether a number and an integer are equal. -/
def sameNumber (n : Int) : Binary64 → Bool
  | .finite negative m q =>
    (m == 0 && n == 0) ||
      (m * Nat.pow 2 q == n.natAbs * Nat.pow 2 1074 && negative == decide (n < 0))
  | _ => false

/-- The number that a truth value equals. -/
def ofTruth (b : Bool) : Int := if b then 1 else 0

mutual

/-- Whether two values are one key of a dictionary. Truth values and numbers are compared as
numbers. -/
def sameKey : Value → Value → Bool
  | .null, .null => true
  | .boolean a, .boolean b => a == b
  | .boolean a, .integer n => ofTruth a == n
  | .integer n, .boolean b => n == ofTruth b
  | .boolean a, .real x => sameNumber (ofTruth a) x
  | .real x, .boolean b => sameNumber (ofTruth b) x
  | .integer n, .integer m => n == m
  | .integer n, .real x => sameNumber n x
  | .real x, .integer n => sameNumber n x
  | .real x, .real y => x.sameValue y
  | .string s, .string t => s == t
  | .bytes s, .bytes t => s == t
  | .moment a, .moment b => a.offset.isSome == b.offset.isSome && a.instant == b.instant
  | .day a, .day b => a == b
  | .tuple as, .tuple bs => sameKeys as bs
  | _, _ => false

def sameKeys : List Value → List Value → Bool
  | [], [] => true
  | a :: as, b :: bs => a.sameKey b && sameKeys as bs
  | _, _ => false

end

/-- Sets an entry. A key that is there keeps its place and takes the new value. -/
def setEntry (key value : Value) : List (Value × Value) → List (Value × Value)
  | [] => [(key, value)]
  | entry :: rest =>
    if entry.1.sameKey key then (entry.1, value) :: rest else entry :: setEntry key value rest

/-- The dictionary with entries set one after another. -/
def ofEntries (entries : List (Value × Value)) : Value :=
  .dict (entries.foldl (fun set entry => setEntry entry.1 entry.2 set) [])

/-- The value under a name in a list of entries. -/
def entry? (name : Text) : List (Value × Value) → Option Value
  | [] => none
  | (.string key, value) :: rest => if key == name then some value else entry? name rest
  | _ :: rest => entry? name rest

end Value

end PropertyList
