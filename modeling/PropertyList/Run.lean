import PropertyList.Failure

/-!
Runs: computations that leave notices on their way to a result or a failure. The notices are kept in
either case, in the order in which they were left.
-/
namespace PropertyList

/-- The part of the library that leaves a notice. -/
inductive Channel where
  | decoder
  | leaves
  | conversion
  deriving DecidableEq, Repr

def Channel.name : Channel → Text
  | .decoder => text "plistxml.decoder"
  | .leaves => text "plistxml.leaf_codec"
  | .conversion => text "plistxml.convert"

/-- What a lenient reader, or a conversion, does without failing. -/
inductive Notice where
  | unparsable (refusal : Markup.Refusal)
  | skippedElement (tag : Text)
  | discardedValue (kind : Text)
  | notInteger (content : Text)
  | clampedInteger (content : Text)
  | notReal (content : Text)
  | droppedText (tag : Text)
  | notBase64
  | notDate (content : Text)
  | skippedEntry (kind : Text)
  deriving DecidableEq, Repr

namespace Notice

def channel : Notice → Channel
  | .unparsable _ => .decoder
  | .skippedElement _ => .decoder
  | .discardedValue _ => .decoder
  | .skippedEntry _ => .conversion
  | _ => .leaves

/-- A document that cannot be parsed is worth a warning, all else is detail. -/
def level : Notice → Text
  | .unparsable _ => text "WARNING"
  | _ => text "DEBUG"

def message : Notice → Text
  | .unparsable refusal =>
    text "Failed to parse property list" ++
      (if refusal = .malformed then [] else text ": " ++ refusal.message)
  | .skippedElement tag => text "Skipping unknown element " ++ inBrackets tag
  | .discardedValue kind => text "Discarding top-level " ++ kind ++ text " after a leaf root"
  | .notInteger content => text "Invalid integer " ++ content.quoted ++ text ", using 0"
  | .clampedInteger content => text "Integer " ++ content.quoted ++ text " overflows, clamping"
  | .notReal content => text "Invalid real " ++ content.quoted ++ text ", using 0.0"
  | .droppedText tag => text "Dropping " ++ inBrackets tag ++ text " with invalid UTF-8 content"
  | .notBase64 => text "Invalid base64 data, using empty buffer"
  | .notDate content => text "Invalid date " ++ content.quoted ++ text ", leaving it unset"
  | .skippedEntry kind => text "Skipping dictionary entry keyed by " ++ inBrackets kind

end Notice

structure Run (α : Type) where
  notices : List Notice
  outcome : Except Failure α

namespace Run

variable {α β : Type}

protected def pure (a : α) : Run α := ⟨[], .ok a⟩

protected def bind (run : Run α) (next : α → Run β) : Run β :=
  match run.outcome with
  | .ok a =>
    let after := next a
    ⟨run.notices ++ after.notices, after.outcome⟩
  | .error failure => ⟨run.notices, .error failure⟩

instance : Monad Run where
  pure := Run.pure
  bind := Run.bind

def fail (failure : Failure) : Run α := ⟨[], .error failure⟩

/-- A fault stops the run. -/
def fault (fault : DecodeFault) : Run α := fail (.undecodable fault)

def ofExcept (result : Except Failure α) : Run α := ⟨[], result⟩

/-- A result with a notice. -/
def noting (notice : Notice) (a : α) : Run α := ⟨[notice], .ok a⟩

end Run

end PropertyList
