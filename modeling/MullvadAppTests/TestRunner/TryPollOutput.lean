import MullvadAppTests.Lib.Broadcast
import MullvadAppTests.Lib.Text

/-!
`StdOutBuffer` of `test-runner/src/logging.rs` and `try_poll_output` of
`test-runner/src/main.rs`. The records of the runner go into a broadcast channel,
and a poll takes out what is there. A poll holds the lock on the receiver, but
records may be sent between any two of its `try_recv`s, so it is given by its
steps.
-/

namespace MullvadAppTests.TestRunner

open Lib

/-- `test_rpc::logging::Output`. -/
inductive Output where
  | error (text : Text)
  | warning (text : Text)
  | info (text : Text)
  | other (text : Text)
  deriving DecidableEq, Repr

/-- `Other` is no output of the runner, but a note of the manager. -/
def Output.isRecord : Output → Bool
  | .error _ => true
  | .warning _ => true
  | .info _ => true
  | .other _ => false

inductive Level where
  | error
  | warn
  | info
  | debug
  | trace
  deriving DecidableEq, Repr

structure Record where
  level : Level
  target : Text
  args : Text
  deriving DecidableEq, Repr

def maxOutputBuffer : Nat := 10000

/-- What the channel of the logger really holds. -/
def outputCapacity : Nat := Broadcast.capacityFor maxOutputBuffer

example : outputCapacity = 16384 := rfl

namespace StdOutBuffer

/-- `metadata.level() <= Level::Info`. -/
def enabled (record : Record) : Bool :=
  match record.level with
  | .error => true
  | .warn => true
  | .info => true
  | .debug => false
  | .trace => false

/-- What `log` sends, if anything. -/
def output (record : Record) : Option Output :=
  if enabled record then
    match record.level with
    | .error => some (.error record.args)
    | .warn => some (.warning record.args)
    | .info => if Text.contains record.target "tarpc".toList then none else some (.info record.args)
    | _ => none
  else none

def log (record : Record) (channel : Broadcast Output) : Broadcast Output :=
  match output record with
  | some output => channel.send output
  | none => channel

theorem output_isRecord {record : Record} {o : Output} (h : output record = some o) :
    o.isRecord = true := by
  unfold output at h
  split at h
  · split at h
    · cases h; rfl
    · cases h; rfl
    · split at h
      · cases h
      · cases h; rfl
    · cases h
  · cases h

/-- A record is sent or not; the receiver stays where it is. -/
theorem log_cases (record : Record) (channel : Broadcast Output) :
    (log record channel).next = channel.next ∧
      ∃ new, (log record channel).sent = channel.sent ++ new ∧ ∀ o ∈ new, o.isRecord = true := by
  unfold log
  split
  · next o houtput => exact ⟨rfl, [o], rfl, by simpa using output_isRecord houtput⟩
  · exact ⟨rfl, [], by simp, by simp⟩

end StdOutBuffer

/-! ### A poll -/

/-- The error of `try_poll_output`: `Error::Logger(StandardOutput)`. -/
inductive LoggerError where
  | standardOutput
  deriving DecidableEq, Repr

/-- Where a call of `try_poll_output` stands before its next `try_recv`. -/
inductive Poll where
  | first
  | draining (buffer : List Output)
  deriving DecidableEq, Repr

inductive Progress where
  | polling (poll : Poll)
  | served (result : Except LoggerError (List Output))
  deriving DecidableEq, Repr

def Poll.step (capacity : Nat) (poll : Poll) (channel : Broadcast Output) :
    Progress × Broadcast Output :=
  match poll, channel.tryRecv capacity with
  | .first, (.ok output, channel) => (.polling (.draining [output]), channel)
  | .first, (.error .empty, channel) => (.served (.ok []), channel)
  | .first, (.error (.lagged _), channel) => (.served (.error .standardOutput), channel)
  | .draining buffer, (.ok output, channel) =>
      (.polling (.draining (buffer ++ [output])), channel)
  | .draining buffer, (.error _, channel) => (.served (.ok buffer), channel)

/-- What a poll has taken out so far. -/
def Poll.buffer : Poll → List Output
  | .first => []
  | .draining buffer => buffer

/-- A step of a poll takes the next record, finds that none is left, or finds that
it has fallen behind. -/
theorem Poll.step_cases (capacity : Nat) (poll : Poll) (channel : Broadcast Output) :
    (channel.next = channel.sent.length ∧
        poll.step capacity channel = (.served (.ok poll.buffer), channel)) ∨
      (¬channel.KeepsUp capacity ∧ ∃ result after,
        poll.step capacity channel = (.served result, after) ∧
        (result = .error .standardOutput ∧ poll = .first ∨
          result = .ok poll.buffer ∧ poll ≠ .first) ∧
        after.sent = channel.sent ∧ after.next = channel.sent.length - capacity) ∨
      ∃ o after, channel.sent[channel.next]? = some o ∧ channel.KeepsUp capacity ∧
        poll.step capacity channel = (.polling (.draining (poll.buffer ++ [o])), after) ∧
        after.sent = channel.sent ∧ after.next = channel.next + 1 := by
  obtain ⟨hempty, hrecv⟩ | ⟨hbehind, missed, after, hrecv, hsent, hnext⟩ |
    ⟨o, after, ho, hkeeps, hrecv, hsent, hnext⟩ := channel.tryRecv_cases capacity
  · left
    refine ⟨hempty, ?_⟩
    unfold step
    rw [hrecv]
    cases poll <;> rfl
  · right; left
    unfold step
    rw [hrecv]
    cases poll with
    | first => exact ⟨hbehind, _, _, rfl, .inl ⟨rfl, rfl⟩, hsent, hnext⟩
    | draining buffer => exact ⟨hbehind, _, _, rfl, .inr ⟨rfl, by simp⟩, hsent, hnext⟩
  · right; right
    refine ⟨o, after, ho, hkeeps, ?_, hsent, hnext⟩
    unfold step
    rw [hrecv]
    cases poll <;> rfl

end MullvadAppTests.TestRunner
