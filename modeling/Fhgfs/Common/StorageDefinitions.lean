import Mathlib.Data.String.Basic

/-!
# Storage definitions

The type of a directory entry, `EntryInfo`, the information to find an inode on a server, and
`FhgfsOpsErr`, the result codes of the storage operations. `SUCCESS` is 0.
-/

namespace Fhgfs

inductive DirEntryType
  | INVALID
  | DIRECTORY
  | REGULARFILE
  | SYMLINK
  | BLOCKDEV
  | CHARDEV
  | FIFO
  | SOCKET
deriving DecidableEq

namespace DirEntryType

def isDir (t : DirEntryType) : Bool := t == .DIRECTORY

/-- `DirEntryType_ISFILE`: any kind of file, including symlinks and special files. -/
def isFile (t : DirEntryType) : Bool := t != .INVALID && t != .DIRECTORY

end DirEntryType

structure EntryInfo where
  ownerNodeID : UInt16
  parentEntryID : String
  entryID : String
  fileName : String
  entryType : DirEntryType
  statFlags : UInt32
deriving DecidableEq

inductive FhgfsOpsErr
  | SUCCESS
  | INTERNAL
  | INTERRUPTED
  | COMMUNICATION
  | COMMTIMEDOUT
  | UNKNOWNNODE
  | NOTOWNER
  | EXISTS
  | PATHNOTEXISTS
  | INUSE
  | DYNAMICATTRIBSOUTDATED
  | PARENTTOSUBDIR
  | NOTADIR
  | NOTEMPTY
  | NOSPACE
  | UNKNOWNTARGET
  | WOULDBLOCK
  | INODENOTINLINED
  | SAVEERROR
  | TOOBIG
  | INVAL
  | ADDRESSFAULT
  | AGAIN
  | STORAGE_SRV_CRASHED
  | PERM
  | DQUOT
  | OUTOFMEM
  | RANGE
  | NODATA
  | NOTSUPP
deriving DecidableEq

def FhgfsOpsErr.code (err : FhgfsOpsErr) : Int := err.ctorIdx

end Fhgfs
