import Mathlib.Logic.Basic

/-!
# Operating-system errors

An error is what callers can see of it: the kind on which they branch and the
text that it prints.
-/

namespace Keyvisor.Foundation

/-- The error kinds on which callers branch; every other kind is `other`. -/
inductive IoErrorKind where
  | notFound
  | alreadyExists
  | invalidInput
  | unexpectedEof
  | other
  deriving DecidableEq, Repr

/-- An operating-system error: its kind and the text that it prints. -/
structure IoError where
  kind : IoErrorKind
  text : String
  deriving DecidableEq, Repr

namespace IoError

def noSuchFile : IoError := ⟨.notFound, "No such file or directory (os error 2)"⟩

def fileExists : IoError := ⟨.alreadyExists, "File exists (os error 17)"⟩

def notADirectory : IoError := ⟨.other, "Not a directory (os error 20)"⟩

def isADirectory : IoError := ⟨.other, "Is a directory (os error 21)"⟩

/-- The end of input inside an exact read. -/
def unfilled : IoError := ⟨.unexpectedEof, "failed to fill whole buffer"⟩

end IoError

end Keyvisor.Foundation
