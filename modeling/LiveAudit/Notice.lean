/-!
# Notices

Short messages to whoever watches. They are numbered from one in the order in which they arise, and
only the latest are kept, as many as there is room for.
-/

namespace LiveAudit

inductive NoticeLevel where
  | info
  | error
deriving DecidableEq, Repr

def NoticeLevel.text : NoticeLevel → String
  | .info => "info"
  | .error => "error"

structure Notice where
  seq : Nat
  level : NoticeLevel
  message : String
deriving DecidableEq, Repr

/-- The latest notices. -/
structure NoticeLog where
  /-- Number of notices kept. -/
  capacity : Nat
  /-- Number of notices that have arisen. -/
  raised : Nat
  /-- Those kept, the oldest first. -/
  kept : List Notice
deriving DecidableEq, Repr

namespace NoticeLog

def new (capacity : UInt64) : NoticeLog :=
  ⟨max capacity.toNat 1, 0, []⟩

/-- Adds a notice under the next number; the oldest ones give way. -/
def push (log : NoticeLog) (level : NoticeLevel) (message : String) : NoticeLog :=
  let seq := log.raised + 1
  let all := log.kept ++ [⟨seq, level, message⟩]
  { log with raised := seq, kept := all.drop (all.length - log.capacity) }

end NoticeLog

end LiveAudit
