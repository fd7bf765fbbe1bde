import MullvadAppTests.Lib.Transition
import MullvadAppTests.TestRunner.RunnerMoves

/-!
Whether the test manager learns that a daemon connection is over. The run of
`forward_to_mullvad_daemon_interface` is followed together with a record of what
crosses the proxy transport. A refused connection and a failed read are
signalled with an empty message; the end of the daemon's stream, a failed write
to the daemon and a failed send to the test manager end the session in silence.
-/

namespace MullvadAppTests.TestRunner

open Lib Lib.LengthDelimited Lib.Transition TestRpc

/-- `attempt` is a message that the loop takes as the first one of a session,
`eof` an empty message received or successfully sent, and `lost` the end of the
transport or an error on it. -/
inductive Crossing where
  | attempt
  | eof
  | lost
  deriving DecidableEq, Repr

def crossing (r : Runner) : RunnerAction → List Crossing
  | .receive (some (.ok message)) =>
      if message.data = [] then [.eof]
      else if r.phase = .waiting then [.attempt]
      else []
  | .receive _ => [.lost]
  | .sent ok =>
      match r.phase with
      | .signalling _ => if ok then [.eof] else []
      | _ => []
  | _ => []

structure RecordedRunner where
  runner : Runner
  crossings : List Crossing
  deriving DecidableEq, Repr

def RecordedRunner.new : RecordedRunner := ⟨.new, []⟩

def RecordedRunner.step (s : RecordedRunner) (a : RunnerAction) : Option RecordedRunner :=
  (forwardToMullvadDaemonInterface s.runner a).map fun next =>
    ⟨next, s.crossings ++ crossing s.runner a⟩

/-- Between two messages that the loop takes as first ones of a session there is
an EOF marker. -/
def EndsSignalled (crossings : List Crossing) : Prop :=
  ∀ before middle after,
    crossings = before ++ Crossing.attempt :: (middle ++ Crossing.attempt :: after) → .eof ∈ middle

/-- No exit that sends no marker is taken: the daemon's end of stream is not
read, no write to the daemon and no send to the test manager fails. The
transport gives no message after it has ended or failed. -/
def Announced (s : RecordedRunner) : RunnerAction → Prop
  | .receive (some (.ok _)) => .lost ∉ s.crossings
  | .read _ =>
      match s.runner.phase with
      | .serving conn _ => conn.fromDaemon.pending ≠ []
      | _ => True
  | .writeFail => False
  | .sent ok => ok = true
  | _ => True

instance (s : RecordedRunner) (a : RunnerAction) : Decidable (Announced s a) := by
  unfold Announced
  split
  · infer_instance
  · split <;> infer_instance
  all_goals infer_instance

/-! ### The record -/

theorem EndsSignalled.snoc {crossings : List Crossing} (h : EndsSignalled crossings)
    {e : Crossing} (he : e ≠ .attempt) : EndsSignalled (crossings ++ [e]) := by
  intro before middle after heq
  rw [← List.cons_append, ← List.append_assoc] at heq
  rcases snoc_eq_append_cons heq with ⟨_, hlast, _⟩ | ⟨later, _, hold⟩
  · exact absurd hlast he
  · exact h before middle later (by simpa using hold)

/-- A first message of a session, when every session before it was signalled. -/
theorem EndsSignalled.attempt {crossings : List Crossing} (h : EndsSignalled crossings)
    (hsettled : ∀ before after, crossings = before ++ Crossing.attempt :: after → .eof ∈ after) :
    EndsSignalled (crossings ++ [Crossing.attempt]) := by
  intro before middle after heq
  rw [← List.cons_append, ← List.append_assoc] at heq
  rcases snoc_eq_append_cons heq with ⟨hold, _, _⟩ | ⟨later, _, hold⟩
  · exact hsettled before middle hold
  · exact h before middle later (by simpa using hold)

/-- While the loop waits for a first message, the session before it was
signalled, unless the transport is lost. -/
structure SignalInv (s : RecordedRunner) : Prop where
  ends : EndsSignalled s.crossings
  settled : s.runner.phase = .waiting → .lost ∉ s.crossings →
    ∀ before after, s.crossings = before ++ Crossing.attempt :: after → .eof ∈ after

theorem SignalInv.initial : SignalInv RecordedRunner.new where
  ends := by
    intro before middle after heq
    simp [RecordedRunner.new] at heq
  settled := by
    intro _ _ before after heq
    simp [RecordedRunner.new] at heq

theorem SignalInv.quiet {s : RecordedRunner} (h : SignalInv s) {next : Runner}
    (hphase : next.phase ≠ .waiting) : SignalInv ⟨next, s.crossings⟩ where
  ends := h.ends
  settled := fun hwaiting => absurd hwaiting hphase

theorem SignalInv.eof {s : RecordedRunner} (h : SignalInv s) (next : Runner) :
    SignalInv ⟨next, s.crossings ++ [.eof]⟩ where
  ends := h.ends.snoc (by decide)
  settled := by
    intro _ _ before after heq
    rcases snoc_eq_append_cons heq with ⟨_, hlast, _⟩ | ⟨later, rfl, _⟩
    · cases hlast
    · simp

theorem SignalInv.lost {s : RecordedRunner} (h : SignalInv s) (next : Runner) :
    SignalInv ⟨next, s.crossings ++ [.lost]⟩ where
  ends := h.ends.snoc (by decide)
  settled := by
    intro _ hlost
    simp at hlost

theorem SignalInv.attempt {s : RecordedRunner} (h : SignalInv s) {next : Runner}
    (hwaiting : s.runner.phase = .waiting) (hlost : .lost ∉ s.crossings)
    (hphase : next.phase ≠ .waiting) : SignalInv ⟨next, s.crossings ++ [.attempt]⟩ where
  ends := h.ends.attempt (h.settled hwaiting hlost)
  settled := fun hnext => absurd hnext hphase

/-! ### The steps of the loop -/

theorem crossing_lost {r : Runner} {item : Option (Except IoError Message)}
    (hitem : ∀ message, item ≠ some (.ok message)) : crossing r (.receive item) = [.lost] := by
  rcases item with _ | error | message
  · rfl
  · rfl
  · exact absurd rfl (hitem message)

/-- A read from a daemon connection that still holds data does not end the
session. -/
theorem read_pending {r next : Runner} {n : Nat} {conn : Connection} {op : Serving}
    (hphase : r.phase = .serving conn op) (hpending : conn.fromDaemon.pending ≠ [])
    (h : forwardToMullvadDaemonInterface r (.read n) = some next) : next.phase ≠ .waiting := by
  cases op with
  | writing | sending => simp [forwardToMullvadDaemonInterface, hphase] at h
  | selecting =>
      simp only [forwardToMullvadDaemonInterface, hphase, Pipe.read, if_neg hpending] at h
      split at h
      · cases h
      · split at h
        · cases h
        · next data pipe hread =>
          split at hread
          · next hn =>
            obtain ⟨rfl, rfl⟩ : List.take n conn.fromDaemon.pending = data ∧
              conn.fromDaemon.advance n = pipe := by simpa using hread
            have hdata : List.take n conn.fromDaemon.pending ≠ [] := by
              simp only [ne_eq, List.take_eq_nil_iff, not_or]
              exact ⟨by omega, hpending⟩
            rw [if_neg hdata] at h
            cases h
            simp
          · cases hread

theorem SignalInv.step (s : RecordedRunner) (a : RunnerAction) (next : RecordedRunner)
    (h : SignalInv s) (hcond : Announced s a) (hstep : s.step a = some next) :
    SignalInv next := by
  obtain ⟨r, hrunner, rfl⟩ := Option.map_eq_some_iff.mp hstep
  cases forwardToMullvadDaemonInterface_move hrunner with
  | ignoreEof message hphase hdata =>
      simpa [crossing, hdata] using h.eof s.runner
  | first message hphase hdata =>
      simp only [crossing, if_neg hdata, if_pos hphase]
      exact h.attempt hphase hcond (by simp)
  | lost item hphase hitem =>
      rw [crossing_lost hitem]
      exact h.lost _
  | eof conn message hphase hdata =>
      simpa [crossing, hdata] using h.eof (s.runner.finish conn)
  | message conn message hphase hdata =>
      simp only [crossing, if_neg hdata, hphase]
      simpa using h.quiet (by simp)
  | lostServing conn item hphase hitem =>
      rw [crossing_lost hitem]
      exact h.lost _
  | connected | refused | wrote | daemonWrite | daemonClose | readFail =>
      simpa [crossing] using h.quiet (by simp [Runner.abandon])
  | writeFail conn rest hphase => exact absurd hcond (by simp [Announced])
  | daemonEof n conn hphase =>
      have hpending : conn.fromDaemon.pending ≠ [] := by simpa [Announced, hphase] using hcond
      exact absurd rfl (read_pending hphase hpending hrunner)
  | read n conn data pipe hphase hread hdata =>
      simpa [crossing] using h.quiet (by simp)
  | sentData conn data hphase =>
      simpa [crossing, hphase] using h.quiet (by simp)
  | sendFailed conn data hphase => exact absurd hcond (by simp [Announced])
  | signalled channel ok hphase =>
      obtain rfl : ok = true := hcond
      simpa [crossing, hphase] using h.eof _

/-- In every run in which the loop takes none of its silent exits, every end of
a daemon connection is signalled before the next session begins. -/
theorem session_end_signalled (actions : List RunnerAction) (s : RecordedRunner)
    (hmeets : Meets RecordedRunner.step Announced RecordedRunner.new actions)
    (hrun : run RecordedRunner.step RecordedRunner.new actions = some s) :
    EndsSignalled s.crossings := by
  have hinv : SignalInv s := run_preserves_of_meets SignalInv.step actions .initial hmeets hrun
  exact hinv.ends

/-- A connection is refused and signalled, the next one is ended by the client. -/
def refusedThenServed : List RunnerAction :=
  [.receive (some (.ok ⟨0, [1]⟩)), .connect false, .sent true,
    .receive (some (.ok ⟨1, [2]⟩)), .connect true, .write 1, .daemonWrite [7], .read 1, .sent true,
    .receive (some (.ok ⟨1, []⟩)), .receive (some (.ok ⟨2, [3]⟩))]

theorem refusedThenServed_signalled :
    ∃ s, run RecordedRunner.step RecordedRunner.new refusedThenServed = some s ∧
      s.crossings = [.attempt, .eof, .attempt, .eof, .attempt] ∧ EndsSignalled s.crossings := by
  have hcrossings : (run RecordedRunner.step RecordedRunner.new refusedThenServed).map
      RecordedRunner.crossings = some [.attempt, .eof, .attempt, .eof, .attempt] := by decide
  obtain ⟨s, hrun, hs⟩ := Option.map_eq_some_iff.mp hcrossings
  exact ⟨s, hrun, hs, session_end_signalled refusedThenServed s (by decide) hrun⟩

/-- The daemon closes the connection, and the client, which is not told, goes on
with the message that the loop takes as the first one of a new session. -/
def daemonClosesFirst : List RunnerAction :=
  [.receive (some (.ok ⟨0, [1]⟩)), .connect true, .write 1, .daemonClose, .read 1,
    .receive (some (.ok ⟨0, [2]⟩))]

theorem daemonClosesFirst_silent :
    ∃ s, run RecordedRunner.step RecordedRunner.new daemonClosesFirst = some s ∧
      s.crossings = [.attempt, .attempt] ∧ ¬ EndsSignalled s.crossings := by
  have hcrossings : (run RecordedRunner.step RecordedRunner.new daemonClosesFirst).map
      RecordedRunner.crossings = some [.attempt, .attempt] := by decide
  obtain ⟨s, hrun, hs⟩ := Option.map_eq_some_iff.mp hcrossings
  refine ⟨s, hrun, hs, ?_⟩
  intro hends
  have hmem : .eof ∈ ([] : List Crossing) := hends [] [] [] hs
  cases hmem

end MullvadAppTests.TestRunner
