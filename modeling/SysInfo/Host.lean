import Mathlib.Data.Rat.Defs
import SysInfo.Lib.CString

/-!
# What the library asks of the machine it runs on

Every reading starts at a file under `/proc` or `/sys` or at a system call. A `Host` is one answer
to all of these questions at one moment; the functions of the library take the host they look at as
an argument. What the framework does between the file and the library (`File::Text`, `File::Path`)
is part of the answer.
-/

namespace SysInfo

/-- An error number with the text the system category has for it. -/
structure Errno where
  code : ℕ
  message : String
  deriving DecidableEq, Repr

def EINVAL : Errno := ⟨22, "Invalid argument"⟩

def ENOENT : Errno := ⟨2, "No such file or directory"⟩

def ENODATA : Errno := ⟨61, "No data available"⟩

/-- What the library throws: a `std::system_error`, with or without a text of its own, or a
`std::runtime_error`. A text that goes through `gettext` is the one that goes in. -/
inductive Exception where
  | systemError (errno : Errno) (what : Option String)
  | runtimeError (what : String)
  deriving DecidableEq, Repr

/-- `e.what()`: a system error puts its own text in front of the one for the number. -/
def Exception.what : Exception → String
  | .systemError errno none => errno.message
  | .systemError errno (some text) => text ++ ": " ++ errno.message
  | .runtimeError text => text

/-- Why a function does not return: it throws, or it has read past the end of its input and nothing
can be said of the program any more. -/
inductive Fault where
  | throw (e : Exception)
  | overrun
  deriving DecidableEq, Repr

/-- The machine at one moment. -/
structure Host where
  /-- The content of a file, as `File::Text` holds it and a file stream reads it. -/
  text : String → Except Exception String
  /-- The lines of a file, as `File::Text::for_each` and its iterator hand them out. -/
  lines : String → Except Exception (List String)
  /-- Where a path really leads, `none` when `access` does not find it. -/
  realpath : String → Option String
  /-- Opening a device for reading. -/
  openDevice : String → Except Errno Unit
  /-- The `BLKSSZGET` request on an open device. -/
  blksszget : String → Except Errno ℕ

/-- A machine on which nothing can be opened. -/
def Host.bare : Host where
  text path := .error (.systemError ENOENT (some path))
  lines path := .error (.systemError ENOENT (some path))
  realpath _ := none
  openDevice _ := .error ENOENT
  blksszget _ := .error ENOENT

/-- A call that may throw, made by a function that may also overrun: what it throws goes on. -/
def rethrow {α : Type} : Except Exception α → Except Fault α
  | .ok a => .ok a
  | .error e => .error (.throw e)

/-- The object a method leaves behind, whether it returns or throws. -/
def left {ε σ α : Type} : EStateM.Result ε σ α → σ
  | .ok _ s => s
  | .error _ s => s

/-- `XML::Node`: what `as_string` and `as_uint` read from its attributes, if it has them. -/
structure XmlNode where
  asString : String → Option String
  asUint : String → Option UInt32

end SysInfo
