/-!
Why a file or a folder cannot be read or written, with the words of the operating system.
-/

namespace LiveNotes

/-- Why a file or folder cannot be used. -/
inductive FileError where
  | missing
  | notFolder
  | isFolder
  | nameTooLong
  | notText
  | other (words : String)
deriving DecidableEq, Repr

/-- The words for an error. -/
def FileError.message : FileError → String
  | .missing => "No such file or directory (os error 2)"
  | .notFolder => "Not a directory (os error 20)"
  | .isFolder => "Is a directory (os error 21)"
  | .nameTooLong => "File name too long (os error 36)"
  | .notText => "stream did not contain valid UTF-8"
  | .other words => words

end LiveNotes
