/-!
Why an operation on files or processes was refused, with the text and the class that it is reported
under.
-/
namespace CaseHarvest

inductive Fault where
  | notFound
  | permissionDenied
  | notExecutable
  | notADirectory
  | isADirectory
  | invalidArgument
  | busy
  | nameTooLong
  | tooManyLinks
  | embeddedNul
  | embeddedNulInCommand
  | notUtf8
  /-- A source that gives up in the middle of its bytes, in its own words. -/
  | broken (reason : String)
  /-- A source that says itself that its bytes have ended too early. -/
  | endedEarly (reason : String)
  /-- A question that was interrupted and can be asked again. -/
  | interrupted (reason : String)
  deriving DecidableEq, Repr

namespace Fault

def message : Fault → String
  | notFound => "No such file or directory (os error 2)"
  | notExecutable => "Exec format error (os error 8)"
  | permissionDenied => "Permission denied (os error 13)"
  | busy => "Device or resource busy (os error 16)"
  | notADirectory => "Not a directory (os error 20)"
  | isADirectory => "Is a directory (os error 21)"
  | invalidArgument => "Invalid argument (os error 22)"
  | nameTooLong => "File name too long (os error 36)"
  | tooManyLinks => "Too many levels of symbolic links (os error 40)"
  | embeddedNul => "file name contained an unexpected NUL byte"
  | embeddedNulInCommand => "nul byte found in provided data"
  | notUtf8 => "stream did not contain valid UTF-8"
  | broken reason => reason
  | endedEarly reason => reason
  | interrupted reason => reason

/-- The class under which callers sort the fault. -/
def kind : Fault → String
  | notFound => "NotFound"
  | notExecutable => "Uncategorized"
  | permissionDenied => "PermissionDenied"
  | busy => "ResourceBusy"
  | notADirectory => "NotADirectory"
  | isADirectory => "IsADirectory"
  | invalidArgument => "InvalidInput"
  | nameTooLong => "InvalidFilename"
  | tooManyLinks => "FilesystemLoop"
  | embeddedNul => "InvalidInput"
  | embeddedNulInCommand => "InvalidInput"
  | notUtf8 => "InvalidData"
  | broken _ => "Other"
  | endedEarly _ => "UnexpectedEof"
  | interrupted _ => "Interrupted"

/-- A fault that readers tell as it is. They take an early end for the end of the bytes where they need
a fixed number of them, and ask again after an interruption. -/
def IsTold : Fault → Prop
  | endedEarly _ | interrupted _ => False
  | _ => True

/-- The fault of who needs more bytes than there are. -/
def unfilled : Fault := .endedEarly "failed to fill whole buffer"

end Fault

end CaseHarvest
