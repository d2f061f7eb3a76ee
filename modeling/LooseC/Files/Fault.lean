/-!
# Reading failures

The reasons why no text can be read under a path, and their wording.
-/

set_option autoImplicit false

namespace LooseC

/-- Why no text can be read under a path. -/
inductive ReadFault where
  /-- Nothing has the path. -/
  | notFound
  /-- A folder has the path. -/
  | isDirectory
  /-- The path goes on behind a file. -/
  | notDirectory
  /-- The content of the file is not valid UTF-8. -/
  | notText
  /-- Another reason, in the words of the system. -/
  | system (reason : String)
deriving DecidableEq

/-- The wording of a reading failure. -/
def ReadFault.message : ReadFault → String
  | .notFound => "No such file or directory (os error 2)"
  | .isDirectory => "Is a directory (os error 21)"
  | .notDirectory => "Not a directory (os error 20)"
  | .notText => "stream did not contain valid UTF-8"
  | .system reason => reason

/-- The text of a file's content. A byte order mark is part of the text. -/
def decodeText (content : ByteArray) : Except ReadFault String :=
  match String.fromUTF8? content with
  | some text => .ok text
  | none => .error .notText

end LooseC
