import ModemLink.Guard

/-!
# Lock files

On some systems a guard is taken by writing the name of a lock to one file and released by writing
it to another.  The name is appended to what the file holds, with nothing after it.  A file that
does not exist is left alone: no file is ever created.
-/

namespace ModemLink

/-- The two files, each with what it holds if it exists, and the label of the lock names. -/
structure LockFiles where
  label : String
  wakeLock : Option String
  wakeUnlock : Option String
deriving DecidableEq

namespace LockFiles

/-- The name of the lock of a guard. -/
def lockName (files : LockFiles) (guard : Guard) : String := s!"{files.label}_{guard.name}"

/-- Writes the lock of a guard to the file of taken locks. -/
def acquire (files : LockFiles) (guard : Guard) : LockFiles :=
  { files with wakeLock := files.wakeLock.map (· ++ files.lockName guard) }

/-- Writes the lock of a guard to the file of released locks. -/
def release (files : LockFiles) (guard : Guard) : LockFiles :=
  { files with wakeUnlock := files.wakeUnlock.map (· ++ files.lockName guard) }

end LockFiles

end ModemLink
