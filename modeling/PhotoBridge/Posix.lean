/-
`src/common/posix_error.cpp`: how an errno becomes a status.

The text `std::error_code::message` gives for an errno belongs to the C++
library; it is the parameter `strerror` wherever a message is built.
-/
import PhotoBridge.Status

namespace PhotoBridge

-- The values of the errnos the source names, on Linux.
def ePERM : Nat := 1
def eNOENT : Nat := 2
def eINTR : Nat := 4
def eBADF : Nat := 9
def eACCES : Nat := 13
def eEXIST : Nat := 17
def eNOTDIR : Nat := 20
def eINVAL : Nat := 22
def eNOSYS : Nat := 38
def eOPNOTSUPP : Nat := 95

def statusCodeFromErrno (errno : Nat) : StatusCode :=
  if errno = 0 then .ok
  else if errno = eINVAL then .invalidArgument
  else if errno = eNOENT ∨ errno = eNOTDIR then .notFound
  else if errno = eEXIST then .alreadyExists
  else if errno = eACCES ∨ errno = ePERM then .permissionDenied
  else if errno = eBADF then .internal
  else .ioError

def statusFromErrno (strerror : Nat → Bytes) (errno : Nat)
    (operation : String) : Status :=
  ⟨statusCodeFromErrno errno, text operation ++ text ": [" ++ decimal errno
    ++ text "] " ++ strerror errno⟩

end PhotoBridge
