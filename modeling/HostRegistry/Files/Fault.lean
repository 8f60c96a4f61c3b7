/-!
Why a file operation can fail.
-/

set_option autoImplicit false

namespace HostRegistry

/-- The causes of a failed file operation. -/
inductive FileFault where
  | notFound
  | busy
  | alreadyExists
  | notDirectory
  | isDirectory
  | nameTooLong
  | notText
  | badPath
  | other (code : Nat) (text : String)
  deriving DecidableEq

/-- The words for a cause, with the number of the system where it has one. -/
def FileFault.message : FileFault → String
  | .notFound => "No such file or directory (os error 2)"
  | .busy => "Device or resource busy (os error 16)"
  | .alreadyExists => "File exists (os error 17)"
  | .notDirectory => "Not a directory (os error 20)"
  | .isDirectory => "Is a directory (os error 21)"
  | .nameTooLong => "File name too long (os error 36)"
  | .notText => "stream did not contain valid UTF-8"
  | .badPath => "file name contained an unexpected NUL byte"
  | .other code text => text ++ " (os error " ++ toString code ++ ")"

end HostRegistry
