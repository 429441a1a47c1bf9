/-
The vocabulary every module shares: byte strings, status codes and the
statuses the source's functions return, digests and file identities.

A C++ `std::string` is a list of bytes here; a function that returns
`Status` is one into `Except Status Unit`, one that returns
`StatusOr<T>` is one into `Except Status T`. `StatusCode` keeps its
`ok` value because a `Status` is also passed around as data (the error
recorded with a retryable task), where the source tests for it.
-/
import Mathlib.Algebra.GroupWithZero.Nat
import Mathlib.Tactic.Common

namespace PhotoBridge

/-- The bytes of a `std::string`. -/
abbrev Bytes := List UInt8

/-- The bytes of a literal of the source. -/
def text (s : String) : Bytes := s.toUTF8.data.toList

theorem text_injective {s t : String} (h : text s = text t) : s = t := by
  have hbytes : s.toUTF8 = t.toUTF8 := by
    cases hs : s.toUTF8
    cases ht : t.toUTF8
    simp only [text, hs, ht] at h
    rw [Array.toList_inj.1 h]
  exact String.toByteArray_inj.1 hbytes

theorem text_inj {s t : String} : text s = text t ↔ s = t :=
  ⟨text_injective, congrArg text⟩

/-- `std::to_string` of an unsigned value. -/
def decimal (n : Nat) : Bytes := text (toString n)

/-- The byte string holds a NUL. -/
def hasNul (s : Bytes) : Bool := s.contains 0

-- ============================================================= statuses

inductive StatusCode
  | ok | invalidArgument | notFound | alreadyExists | permissionDenied
  | ioError | internal
  deriving DecidableEq, Repr

structure Status where
  code : StatusCode
  message : Bytes
  deriving DecidableEq, Repr

namespace Status

/-- `Status::ok`. -/
def isOk (s : Status) : Bool := s.code == .ok

/-- The `Invalid` helper each source file defines for itself. -/
def invalid (message : String) : Status := ⟨.invalidArgument, text message⟩

def notFound (message : String) : Status := ⟨.notFound, text message⟩

def alreadyExists (message : String) : Status := ⟨.alreadyExists, text message⟩

def ioError (message : String) : Status := ⟨.ioError, text message⟩

def internal (message : String) : Status := ⟨.internal, text message⟩

/-- `SqliteError`: the failing operation and SQLite's own message. -/
def sqlite (operation : String) (errmsg : Bytes) : Status :=
  ⟨.ioError, text operation ++ text ": " ++ errmsg⟩

end Status

-- ================================================= digests and identities

/-- A BLAKE3 digest: 32 bytes. -/
structure Digest where
  bytes : Bytes
  size : bytes.length = 32
  deriving DecidableEq

/-- `Digest{}`: the default value, all zeros. -/
def Digest.zero : Digest := ⟨List.replicate 32 0, by simp⟩

instance : Inhabited Digest := ⟨.zero⟩

/-- The digit of `kHex` for the low four bits of a byte. -/
def hexDigit (v : UInt8) : UInt8 := if v < 10 then 48 + v else 87 + v

/-- `Digest::ToHex`. -/
def Digest.toHex (d : Digest) : Bytes :=
  d.bytes.flatMap fun (b : UInt8) => [hexDigit (b >>> 4), hexDigit (b &&& 15)]

/-- What `StatFd` reports of a file. -/
structure FileIdentity where
  device : UInt64
  inode : UInt64
  size : UInt64
  mtimeNs : Int64
  ctimeNs : Int64
  mountId : Option UInt64
  deriving DecidableEq

/-- `std::numeric_limits<sqlite3_int64>::max()`. -/
def int64Max : Nat := 2 ^ 63 - 1

/-- `std::numeric_limits<std::uint32_t>::max()`. -/
def uint32Max : Nat := 2 ^ 32 - 1

/-- `std::numeric_limits<int>::max()`. -/
def intMax : Nat := 2 ^ 31 - 1

end PhotoBridge
