import PropertyList.Number.Positional
import PropertyList.Text.Quoted

/-!
What is wrong with a value that is to become a node, a record or a configuration. Every issue tells
its place and its problem; a problem has a code and a message.
-/
namespace PropertyList

/-- One step from a value to what stands inside it. -/
inductive Place where
  | field (name : Text)
  | index (i : Nat)
  deriving DecidableEq, Repr

inductive Problem where
  | belowMinimum (least : Int)
  | aboveMaximum (greatest : Int)
  | forbiddenCharacter (c : CodePoint) (position : Nat)
  | otherConstant (expected : Text)
  | missing
  | noText
  | brokenText
  | noBytes
  | noBoolean
  | unreadableBoolean
  | noList
  | noInteger
  | unreadableInteger
  | hugeInteger
  | fractionalInteger
  | infiniteInteger
  | noNumber
  | unreadableNumber
  | noMoment
  | noChoice (choices : List Text)
  | noRecord (name : Text)
  | noAttributes
  | frozen
  | unknownField (name : Text)
  | unnamedEntry
  | unknownTag (tag : Text) (tags : List Text)
  | noTag
  | loop
  deriving DecidableEq, Repr

/-- Texts with marks around each of them and a separator between them. -/
def enumerate (marked : List Text) (separator last : Text) : Text :=
  match marked with
  | [] => []
  | [one] => one
  | [one, two] => one ++ last ++ two
  | one :: rest => one ++ separator ++ enumerate rest separator last

namespace Problem

def code : Problem → Text
  | .belowMinimum _ => text "greater_than_equal"
  | .aboveMaximum _ => text "less_than_equal"
  | .forbiddenCharacter _ _ => text "value_error"
  | .otherConstant _ => text "literal_error"
  | .missing => text "missing"
  | .noText => text "string_type"
  | .brokenText => text "string_unicode"
  | .noBytes => text "bytes_type"
  | .noBoolean => text "bool_type"
  | .unreadableBoolean => text "bool_parsing"
  | .noList => text "list_type"
  | .noInteger => text "int_type"
  | .unreadableInteger => text "int_parsing"
  | .hugeInteger => text "int_parsing_size"
  | .fractionalInteger => text "int_from_float"
  | .infiniteInteger => text "finite_number"
  | .noNumber => text "float_type"
  | .unreadableNumber => text "float_parsing"
  | .noMoment => text "datetime_type"
  | .noChoice _ => text "enum"
  | .noRecord _ => text "model_type"
  | .noAttributes => text "model_attributes_type"
  | .frozen => text "frozen_instance"
  | .unknownField _ => text "no_such_attribute"
  | .unnamedEntry => text "entry_name"
  | .unknownTag _ _ => text "union_tag_invalid"
  | .noTag => text "union_tag_not_found"
  | .loop => text "recursion_loop"

/-- A text between apostrophes, whatever it holds. -/
def inMarks (s : Text) : Text := ch '\'' :: s ++ [ch '\'']

def message : Problem → Text
  | .belowMinimum least =>
    text "Input should be greater than or equal to " ++ signedDecimal least
  | .aboveMaximum greatest =>
    text "Input should be less than or equal to " ++ signedDecimal greatest
  | .forbiddenCharacter c position =>
    text "Value error, Character " ++ Text.quoted [c] ++ text " at index " ++ decimal position ++
      text " is not allowed in XML"
  | .otherConstant expected => text "Input should be " ++ inMarks expected
  | .missing => text "Field required"
  | .noText => text "Input should be a valid string"
  | .brokenText =>
    text "Input should be a valid string, unable to parse raw data as a unicode string"
  | .noBytes => text "Input should be a valid bytes"
  | .noBoolean => text "Input should be a valid boolean"
  | .unreadableBoolean => text "Input should be a valid boolean, unable to interpret input"
  | .noList => text "Input should be a valid list"
  | .noInteger => text "Input should be a valid integer"
  | .unreadableInteger =>
    text "Input should be a valid integer, unable to parse string as an integer"
  | .hugeInteger => text "Unable to parse input string as an integer, exceeded maximum size"
  | .fractionalInteger =>
    text "Input should be a valid integer, got a number with a fractional part"
  | .infiniteInteger => text "Input should be a finite number"
  | .noNumber => text "Input should be a valid number"
  | .unreadableNumber => text "Input should be a valid number, unable to parse string as a number"
  | .noMoment => text "Input should be a valid datetime"
  | .noChoice choices =>
    text "Input should be " ++ enumerate (choices.map inMarks) (text ", ") (text " or ")
  | .noRecord name => text "Input should be a valid dictionary or instance of " ++ name
  | .noAttributes =>
    text "Input should be a valid dictionary or object to extract fields from"
  | .frozen => text "Instance is frozen"
  | .unknownField name => text "Object has no attribute " ++ inMarks name
  | .unnamedEntry => text "Entry names should be strings"
  | .unknownTag tag tags =>
    text "Input tag " ++ inMarks tag ++
      text " found using 'type' does not match any of the expected tags: " ++
      enumerate (tags.map inMarks) (text ", ") (text ", ")
  | .noTag => text "Unable to extract tag using discriminator 'type'"
  | .loop => text "Recursion error - cyclic reference detected"

end Problem

structure Issue where
  place : List Place
  problem : Problem
  deriving DecidableEq, Repr

namespace Issue

/-- The issue as seen from one step further out. -/
def inside (step : Place) (issue : Issue) : Issue := { issue with place := step :: issue.place }

/-- The problem of a field. -/
def ofField (name : String) (problem : Problem) : Issue := ⟨[.field (text name)], problem⟩

end Issue

end PropertyList
