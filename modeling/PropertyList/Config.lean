import PropertyList.Failure

/-!
What readers and writers can be told: whether a reader is strict, and how many characters of Base64
stand on a line.
-/
namespace PropertyList

structure Config where
  strict : Bool
  columns : Nat
  deriving DecidableEq, Repr

namespace Config

def default : Config := ⟨false, 60⟩

instance : Inhabited Config := ⟨.default⟩

def title : Text := text "CodecConfig"

/-- A configuration for any number of columns; at least one is needed. -/
def ofColumns (strict : Bool) (columns : Int) : Except Failure Config :=
  titled title
    (if columns < 1 then .error [Issue.ofField "data_columns" (.belowMinimum 1)]
    else .ok ⟨strict, columns.toNat⟩)

/-- A configuration does not change once it is made. -/
def assign (_ : Config) (field : Text) : Except Failure Config :=
  titled title (.error [⟨[.field field], .frozen⟩])

end Config

end PropertyList
