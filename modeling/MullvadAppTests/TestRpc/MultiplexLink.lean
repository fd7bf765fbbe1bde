import MullvadAppTests.Lib.Transition
import MullvadAppTests.TestRpc.CodecConnect
import MullvadAppTests.TestRpc.EndpointMoves

/-!
A client loop and a server loop joined by two byte pipes that neither lose nor
reorder anything. Reads are cut arbitrarily, the two loops and the applications
at both ends interleave arbitrarily, and either loop may stop at any time. The
invariant says that the bytes in a reader's buffer and in the pipe stand for
exactly the frames emitted and not yet received.
-/

namespace MullvadAppTests.TestRpc

open Lib.LengthDelimited Lib.Incremental Lib.Transition

structure Link (C R : Type) where
  client : Endpoint C R
  server : Endpoint R C
  toServer : Bytes
  toClient : Bytes

def Link.new (C R : Type) : Link C R where
  client := .new C R false
  server := .new R C true
  toServer := []
  toClient := []

inductive LinkAction (C R : Type) where
  | client (a : EndAction C)
  | server (a : EndAction R)

def EndAction.reads {T : Type} : EndAction T → List (Except IoError Bytes)
  | .poll reads _ => reads
  | .offerRunner _ | .closeRunner | .offerDaemon _ | .closeDaemon | .complete _ => []

def Endpoint.stopped {T S : Type} (e : Endpoint T S) : Bool :=
  match e.phase with
  | .returned _ => true
  | .selecting | .performing _ => false

/-- What the pipe holds after these reads. The end of the stream is seen only
behind the last byte of a peer that has stopped; a read never fails. -/
def takeReads (closed : Bool) : Bytes → List (Except IoError Bytes) → Option Bytes
  | pipe, [] => some pipe
  | pipe, .ok [] :: reads => if closed && pipe.isEmpty then takeReads closed pipe reads else none
  | pipe, .ok chunk :: reads =>
      if chunk.isPrefixOf pipe then takeReads closed (pipe.drop chunk.length) reads else none
  | _, .error _ :: _ => none

def Link.step {C R : Type} (jsonC : Json C) (jsonR : Json R) (s : Link C R) :
    LinkAction C R → Option (Link C R)
  | .client a => do
      let toClient ← takeReads s.server.stopped s.toClient a.reads
      let (client, bytes) ← s.client.step jsonC jsonR true a
      return {s with client, toClient, toServer := s.toServer ++ bytes}
  | .server a => do
      let toServer ← takeReads s.client.stopped s.toServer a.reads
      let (server, bytes) ← s.server.step jsonR jsonC false a
      return {s with server, toServer, toClient := s.toClient ++ bytes}

/-! ### One poll of the serial stream -/

/-- The bytes that these reads bring. -/
def readBytes : List (Except IoError Bytes) → Bytes
  | [] => []
  | .ok chunk :: reads => chunk ++ readBytes reads
  | .error _ :: reads => readBytes reads

theorem takeReads_eq {closed : Bool} {pipe rest : Bytes} {reads : List (Except IoError Bytes)}
    (h : takeReads closed pipe reads = some rest) : pipe = readBytes reads ++ rest := by
  induction reads generalizing pipe with
  | nil =>
      simp only [takeReads, Option.some.injEq] at h
      simpa [readBytes] using h
  | cons read reads ih =>
      rcases read with e | _ | ⟨b, chunk⟩
      · simp [takeReads] at h
      · simp only [takeReads] at h
        split at h
        · simpa [readBytes] using ih h
        · cases h
      · simp only [takeReads] at h
        split at h
        · next hchunk =>
          obtain ⟨tail, rfl⟩ := List.isPrefixOf_iff_prefix.mp hchunk
          rw [List.drop_left] at h
          rw [ih h, readBytes, List.append_assoc]
        · cases h

/-- The result of a call with the state it leaves, for a stream that a
residual describes. -/
theorem tryDecode_residual (R : Residual decode) (s : SerialStream) (future : Bytes)
    (items : List Frame) (h : R.holds s.codec (s.buffer ++ future) items) :
    (∃ f rest, s.tryDecode.1 = .ready (some (.ok f)) ∧ items = f :: rest ∧
      R.holds s.tryDecode.2.codec (s.tryDecode.2.buffer ++ future) rest) ∨
    ((∀ f, s.tryDecode.1 ≠ .ready (some (.ok f))) ∧
      R.holds s.tryDecode.2.codec (s.tryDecode.2.buffer ++ future) items) := by
  by_cases hreadable : s.readable
  · rcases R.step s.codec s.buffer future items h with
      ⟨f, rest, next, left, hcall, _, hitems, hnext⟩ | ⟨next, left, hcall, _, hnext⟩
    · left
      refine ⟨f, rest, ?_, hitems, ?_⟩ <;>
        simp only [SerialStream.tryDecode, hreadable, hcall, if_true]
      exact hnext
    · right
      simp only [SerialStream.tryDecode, hreadable, hcall, if_true]
      by_cases heof : s.eof
      · by_cases hleft : left = []
        · simp only [heof, hleft, if_true]
          exact ⟨by simp, by simpa [hleft] using hnext⟩
        · simp only [heof, hleft, if_true, if_false]
          exact ⟨by simp, hnext⟩
      · simp only [heof]
        exact ⟨by simp, hnext⟩
  · right
    simp only [SerialStream.tryDecode, hreadable]
    exact ⟨by simp, h⟩

theorem pollNext_residual (R : Residual decode) (reads : List (Except IoError Bytes))
    (s next : SerialStream) (poll : SerialPoll) (future : Bytes) (items : List Frame)
    (hpoll : s.pollNext reads = some (poll, next))
    (h : R.holds s.codec (s.buffer ++ (readBytes reads ++ future)) items) :
    (∃ f rest, poll = .ready (some (.ok f)) ∧ items = f :: rest ∧
      R.holds next.codec (next.buffer ++ future) rest) ∨
    ((∀ f, poll ≠ .ready (some (.ok f))) ∧
      R.holds next.codec (next.buffer ++ future) items) := by
  induction reads generalizing s with
  | nil =>
      simp only [SerialStream.pollNext, Option.some.injEq] at hpoll
      have hcall := tryDecode_residual R s future items h
      rwa [hpoll] at hcall
  | cons read reads ih =>
      have hcall := tryDecode_residual R s (readBytes (read :: reads) ++ future) items h
      rcases htry : s.tryDecode with ⟨first, after⟩
      rw [htry] at hcall
      simp only [SerialStream.pollNext, htry] at hpoll
      cases first with
      | ready item => cases hpoll
      | pending =>
          simp only at hpoll
          have hafter : R.holds after.codec
              (after.buffer ++ (readBytes (read :: reads) ++ future)) items := by
            rcases hcall with ⟨_, _, hready, _⟩ | ⟨_, hafter⟩
            · cases hready
            · exact hafter
          rcases read with e | _ | ⟨b, chunk⟩
          · -- a failed read ends the poll with the buffer as it is
            simp only at hpoll
            split at hpoll
            · next hreads =>
              cases hpoll
              subst hreads
              exact Or.inr ⟨by simp, hafter⟩
            · cases hpoll
          · simp only at hpoll
            split at hpoll
            · split at hpoll
              · next hreads =>
                cases hpoll
                subst hreads
                exact Or.inr ⟨by simp, hafter⟩
              · cases hpoll
            · exact ih _ hpoll hafter
          · apply ih _ hpoll
            simpa [readBytes] using hafter

/-- A frame comes out of a connected codec only, and no call disconnects. -/
theorem decode_hasConnected (codec next : MultiplexCodec) (src left : Bytes)
    (result : Except IoError (Option Frame)) (h : decode codec src = (result, next, left)) :
    (∀ f, result = .ok (some f) → next.hasConnected = true) ∧
    (codec.hasConnected = true → next.hasConnected = true) := by
  obtain ⟨state, hasConnected⟩ := codec
  cases hasConnected with
  | true =>
      rw [decode_connected] at h
      cases h
      exact ⟨fun _ _ => rfl, fun _ => rfl⟩
  | false =>
      refine ⟨?_, fun hfalse => absurd hfalse (by simp)⟩
      intro f hf
      rcases hskip : skipNoise false src with ⟨flag, rest⟩
      cases flag with
      | false =>
          rw [decode_unconnected_none hskip] at h
          cases h
          cases hf
      | true =>
          rw [decode_unconnected_found state hskip] at h
          cases h
          rfl

theorem tryDecode_hasConnected (s : SerialStream) :
    (∀ f, s.tryDecode.1 = .ready (some (.ok f)) → s.tryDecode.2.codec.hasConnected = true) ∧
    (s.codec.hasConnected = true → s.tryDecode.2.codec.hasConnected = true) := by
  rcases hcall : decode s.codec s.buffer with ⟨result, next, left⟩
  obtain ⟨hframe, hkeep⟩ := decode_hasConnected s.codec next s.buffer left result hcall
  unfold SerialStream.tryDecode
  rw [hcall]
  rcases result with e | _ | f
  · split <;> simp_all
  · split
    · simp only
      split
      · split <;> simp_all
      · simp_all
    · simp_all
  · split
    · exact ⟨fun _ _ => hframe f rfl, hkeep⟩
    · simp_all

theorem pollNext_hasConnected (reads : List (Except IoError Bytes)) (s next : SerialStream)
    (poll : SerialPoll) (hpoll : s.pollNext reads = some (poll, next)) :
    (∀ f, poll = .ready (some (.ok f)) → next.codec.hasConnected = true) ∧
    (s.codec.hasConnected = true → next.codec.hasConnected = true) := by
  induction reads generalizing s with
  | nil =>
      simp only [SerialStream.pollNext, Option.some.injEq] at hpoll
      have hcall := tryDecode_hasConnected s
      rwa [hpoll] at hcall
  | cons read reads ih =>
      have hcall := tryDecode_hasConnected s
      rcases htry : s.tryDecode with ⟨first, after⟩
      rw [htry] at hcall
      simp only [SerialStream.pollNext, htry] at hpoll
      cases first with
      | ready item => cases hpoll
      | pending =>
          simp only at hpoll
          rcases read with e | _ | ⟨b, chunk⟩
          · simp only at hpoll
            split at hpoll
            · cases hpoll
              exact ⟨by simp, hcall.2⟩
            · cases hpoll
          · simp only at hpoll
            split at hpoll
            · split at hpoll
              · cases hpoll
                exact ⟨by simp, hcall.2⟩
              · cases hpoll
            · obtain ⟨hframe, hkeep⟩ := ih _ hpoll
              exact ⟨hframe, fun hs => hkeep (hcall.2 hs)⟩
          · obtain ⟨hframe, hkeep⟩ := ih _ hpoll
            exact ⟨hframe, fun hs => hkeep (hcall.2 hs)⟩

/-! ### One direction of the line -/

/-- What a reader's codec, its buffer and the pipe stand for. A client that has
not seen anything yet is the one case that a session does not cover. -/
def LinkPending (codec : MultiplexCodec) (bytes : Bytes) (frames : List Frame) : Prop :=
  Session codec bytes frames ∨ (codec = ⟨.head, false⟩ ∧ bytes = [] ∧ frames = [])

def linkResidual : Residual decode where
  holds := LinkPending
  quiet := fun _ _ => True
  step := by
    rintro codec src future frames (hsession | ⟨rfl, hbytes, rfl⟩)
    · rcases sessionResidual.step codec src future frames hsession with
        ⟨f, rest, next, left, hcall, hlength, hframes, hnext⟩ | ⟨next, left, hcall, _, hnext⟩
      · exact Or.inl ⟨f, rest, next, left, hcall, hlength, hframes, Or.inl hnext⟩
      · exact Or.inr ⟨next, left, hcall, trivial, Or.inl hnext⟩
    · obtain ⟨rfl, rfl⟩ := List.append_eq_nil_iff.mp hbytes
      exact Or.inr ⟨⟨.head, false⟩, [], rfl, trivial, Or.inr ⟨rfl, rfl, rfl⟩⟩

theorem Noisy.append_frame {frames : List Frame} {bytes : Bytes} (h : Noisy frames bytes)
    (f : Frame) (hf : f.Fits) : Noisy (frames ++ [f]) (bytes ++ f.wire) := by
  induction h with
  | done => simpa using Noisy.frame f hf Noisy.done
  | noise x _ ih => exact Noisy.noise x ih
  | frame g hg _ ih =>
      rw [List.cons_append, List.append_assoc]
      exact Noisy.frame g hg ih

theorem Pending.append_frame {codec : MultiplexCodec} {bytes : Bytes} {frames : List Frame}
    (h : Pending codec bytes frames) (f : Frame) (hf : f.Fits) :
    Pending codec (bytes ++ f.wire) (frames ++ [f]) := by
  obtain ⟨state, hasConnected⟩ := codec
  obtain ⟨hflag, hstate⟩ := h
  refine ⟨hflag, ?_⟩
  cases state with
  | head => exact Noisy.append_frame hstate f hf
  | data n =>
      obtain ⟨g, rest, tail, rfl, hg, hn, rfl, hrest⟩ := hstate
      exact ⟨g, rest ++ [f], tail ++ f.wire, rfl, hg, hn, List.append_assoc _ _ _,
        hrest.append_frame f hf⟩

theorem Scan.append {lone : Bool} {bytes tail : Bytes} (h : Scan lone bytes tail)
    (more : Bytes) : Scan lone (bytes ++ more) (tail ++ more) := by
  rcases h with ⟨garbage, rfl, hinfix, hlone⟩ | ⟨hlone, rfl⟩
  · exact Or.inl ⟨garbage, by simp, hinfix, hlone⟩
  · exact Or.inr ⟨hlone, List.append_assoc _ _ _⟩

/-- A frame put on the line is one more frame pending. The first one that a
fresh client gets to see must be a handshake. -/
theorem LinkPending.append_frame {codec : MultiplexCodec} {bytes : Bytes} {frames : List Frame}
    (h : LinkPending codec bytes frames) (f : Frame) (hf : f.Fits)
    (hfirst : codec.hasConnected = false → frames = [] → f = .handshake) :
    LinkPending codec (bytes ++ f.wire) (frames ++ [f]) := by
  rcases h with (⟨hflag, lone, rest, tail, rfl, hscan, hstep, hnoisy⟩ | hpending) | ⟨rfl, rfl, rfl⟩
  · exact Or.inl (Or.inl ⟨hflag, lone, rest ++ [f], tail ++ f.wire, rfl, hscan.append f.wire,
      hstep, hnoisy.append_frame f hf⟩)
  · exact Or.inl (Or.inr (hpending.append_frame f hf))
  · rw [hfirst rfl rfl]
    refine Or.inl (Or.inl ⟨rfl, false, [], [], rfl, ?_, rfl, Noisy.done⟩)
    exact Or.inl ⟨[], by simp, by decide, by decide⟩

section Direction

variable {T S : Type} {out : Json T} {into : Json S} {handshakeFwd : Bool}

/-- The frames emitted at the other end are those received here followed by
those that the buffer and the pipe stand for. -/
def Carries (emitted : List Frame) (reader : Endpoint T S) (pipe : Bytes) : Prop :=
  ∃ pending, emitted = reader.received ++ pending ∧
    LinkPending reader.serial.codec (reader.serial.buffer ++ pipe) pending ∧
    (reader.serial.codec.hasConnected = false → reader.received = [])

theorem Carries.send {emitted : List Frame} {reader : Endpoint T S} {pipe : Bytes}
    (h : Carries emitted reader pipe) (f : Frame) (hf : f.Fits)
    (hfirst : reader.serial.codec.hasConnected = false → emitted = [] → f = .handshake) :
    Carries (emitted ++ [f]) reader (pipe ++ f.wire) := by
  obtain ⟨pending, hemitted, hpending, hfresh⟩ := h
  refine ⟨pending ++ [f], by rw [hemitted, List.append_assoc], ?_, hfresh⟩
  rw [← List.append_assoc]
  apply hpending.append_frame f hf
  intro hflag hnone
  apply hfirst hflag
  rw [hemitted, hfresh hflag, hnone]
  rfl

theorem finish_reader (e : Endpoint T S) (op : Op S) (ok : Bool) :
    (e.finish op ok).1.serial = e.serial ∧ (e.finish op ok).1.received = e.received := by
  cases op with
  | sendSerial f =>
      simp only [Endpoint.finish]
      cases encode f <;> cases ok <;> exact ⟨rfl, rfl⟩
  | closeDaemon =>
      simp only [Endpoint.finish, encode_of_fits (.daemonRpc []) (by decide)]
      cases ok <;> exact ⟨rfl, rfl⟩
  | sendRunner _ => cases ok <;> exact ⟨rfl, rfl⟩
  | sendDaemon _ => cases ok <;> exact ⟨rfl, rfl⟩
  | forwardHandshake => exact ⟨rfl, rfl⟩
  | queueHandshake => exact ⟨rfl, rfl⟩
  | stop _ => exact ⟨rfl, rfl⟩

/-- A poll hands the next pending frame to the loop or changes nothing in what
is pending. -/
theorem poll_reader (e next : Endpoint T S) (reads : List (Except IoError Bytes))
    (fault : Option Fault) (h : e.poll out into handshakeFwd reads fault = some next) :
    ∃ poll, e.serial.pollNext reads = some (poll, next.serial) ∧
      ((∃ f, poll = .ready (some (.ok f)) ∧ next.received = e.received ++ [f]) ∨
        ((∀ f, poll ≠ .ready (some (.ok f))) ∧ next.received = e.received)) := by
  unfold Endpoint.poll at h
  rcases hpoll : e.serial.pollNext reads with _ | ⟨poll, serial⟩
  · rw [hpoll] at h
    cases h
  rw [hpoll] at h
  cases poll with
  | ready item =>
      simp only [Option.some.injEq] at h
      subst h
      rcases item with _ | err | f
      · exact ⟨_, rfl, Or.inr ⟨by simp, rfl⟩⟩
      · exact ⟨_, rfl, Or.inr ⟨by simp, rfl⟩⟩
      · exact ⟨_, rfl, Or.inl ⟨f, rfl, rfl⟩⟩
  | pending =>
      simp only at h
      cases hlocal : e.pollLocal fault with
      | none =>
          rw [hlocal, Option.some.injEq] at h
          subst h
          exact ⟨_, rfl, Or.inr ⟨by simp, rfl⟩⟩
      | some selected =>
          rw [hlocal, Option.some.injEq] at h
          subst h
          have hkind : ∀ f, selected ≠ .serial (some (.ok f)) := by
            intro f heq
            unfold Endpoint.pollLocal at hlocal
            split at hlocal
            · cases hlocal
              cases heq
            · split at hlocal
              · cases hlocal
                cases heq
              · obtain ⟨item, _, rfl⟩ := Option.map_eq_some_iff.mp hlocal
                cases heq
          rcases selected with (_ | _ | f) | _ | (_ | _ | _) | (_ | _ | _)
          case serial.some.ok => exact absurd rfl (hkind f)
          all_goals exact ⟨_, rfl, Or.inr ⟨by simp, rfl⟩⟩

theorem Carries.poll {emitted : List Frame} {e next : Endpoint T S} {closed : Bool}
    {pipe rest : Bytes} {reads : List (Except IoError Bytes)} {fault : Option Fault}
    (h : Carries emitted e pipe) (htake : takeReads closed pipe reads = some rest)
    (hpoll : e.poll out into handshakeFwd reads fault = some next) :
    Carries emitted next rest := by
  obtain ⟨pending, hemitted, hpending, hfresh⟩ := h
  obtain ⟨poll, hserial, hreceived⟩ := poll_reader e next reads fault hpoll
  obtain ⟨hframe, hkeep⟩ := pollNext_hasConnected reads e.serial next.serial poll hserial
  rw [takeReads_eq htake] at hpending
  have hresult := pollNext_residual linkResidual reads e.serial next.serial poll rest pending
    hserial hpending
  rcases hreceived with ⟨f, rfl, hnext⟩ | ⟨hnone, hnext⟩
  · rcases hresult with ⟨g, more, hready, hitems, hmore⟩ | ⟨hno, _⟩
    · cases hready
      refine ⟨more, by rw [hemitted, hnext, hitems, List.append_assoc]; rfl, hmore, ?_⟩
      intro hflag
      rw [hframe f rfl] at hflag
      cases hflag
    · exact absurd rfl (hno f)
  · rcases hresult with ⟨g, _, hready, _⟩ | ⟨_, hsame⟩
    · exact absurd hready (hnone g)
    · refine ⟨pending, by rw [hnext, hemitted], hsame, ?_⟩
      intro hflag
      rw [hnext]
      apply hfresh
      by_contra hconnected
      rw [hkeep (by simpa using hconnected)] at hflag
      cases hflag

/-- A step of an end polls the serial line or leaves it alone. -/
theorem step_reader {e next : Endpoint T S} {bytes : Bytes} {a : EndAction T}
    (hstep : e.step out into handshakeFwd a = some (next, bytes)) :
    (∃ reads fault, a = .poll reads fault ∧
        e.poll out into handshakeFwd reads fault = some next) ∨
      (a.reads = [] ∧ next.serial = e.serial ∧ next.received = e.received) := by
  cases a with
  | poll reads fault =>
      simp only [Endpoint.step] at hstep
      split at hstep
      · obtain ⟨after, hpoll, heq⟩ := Option.map_eq_some_iff.mp hstep
        cases heq
        exact Or.inl ⟨reads, fault, rfl, hpoll⟩
      · cases hstep
  | complete ok =>
      simp only [Endpoint.step] at hstep
      split at hstep
      · next op hphase =>
        have hreader := finish_reader e op ok
        rw [Option.some.inj hstep] at hreader
        exact Or.inr ⟨rfl, hreader⟩
      · cases hstep
  | offerRunner message =>
      simp only [Endpoint.step] at hstep
      split at hstep
      · cases hstep
      · cases hstep
        exact Or.inr ⟨rfl, rfl, rfl⟩
  | offerDaemon payload =>
      simp only [Endpoint.step] at hstep
      split at hstep
      · cases hstep
      · cases hstep
        exact Or.inr ⟨rfl, rfl, rfl⟩
  | closeRunner | closeDaemon =>
      cases hstep
      exact Or.inr ⟨rfl, rfl, rfl⟩

theorem Carries.step {emitted : List Frame} {e next : Endpoint T S} {closed : Bool}
    {pipe rest bytes : Bytes} {a : EndAction T} (h : Carries emitted e pipe)
    (htake : takeReads closed pipe a.reads = some rest)
    (hstep : e.step out into handshakeFwd a = some (next, bytes)) :
    Carries emitted next rest := by
  rcases step_reader hstep with ⟨reads, fault, rfl, hpoll⟩ | ⟨hreads, hserial, hreceived⟩
  · exact h.poll htake hpoll
  · rw [hreads] at htake
    cases htake
    unfold Carries
    rwa [hserial, hreceived]

theorem step_hasConnected {e next : Endpoint T S} {bytes : Bytes} {a : EndAction T}
    (hstep : e.step out into handshakeFwd a = some (next, bytes))
    (h : e.serial.codec.hasConnected = true) : next.serial.codec.hasConnected = true := by
  rcases step_reader hstep with ⟨reads, fault, _, hpoll⟩ | ⟨_, hserial, _⟩
  · obtain ⟨poll, hserial, _⟩ := poll_reader e next reads fault hpoll
    exact (pollNext_hasConnected reads e.serial next.serial poll hserial).2 h
  · rwa [hserial]

/-- The sender's step on its outgoing pipe. -/
theorem Carries.sends {U V : Type} {e next : Endpoint T S} {reader : Endpoint U V}
    {pipe bytes : Bytes} (h : Carries e.emitted reader pipe)
    (hmove : Move out into handshakeFwd e next bytes)
    (hfirst : reader.serial.codec.hasConnected = false → FirstHandshake next) :
    Carries next.emitted reader (pipe ++ bytes) := by
  rcases hmove.emits with ⟨rfl, hsame⟩ | ⟨f, hfits, rfl, hmore⟩
  · rwa [hsame, List.append_nil]
  · rw [hmore]
    apply h.send f hfits
    intro hflag hnone
    have hhead := hfirst hflag
    simpa [FirstHandshake, hmore, hnone] using hhead

end Direction

/-! ### The two loops together -/

section Both

variable {C R : Type} {jsonC : Json C} {jsonR : Json R}

variable (jsonC jsonR) in
structure LinkInv (s : Link C R) : Prop where
  client : EndInv jsonC jsonR true s.client
  server : EndInv jsonR jsonC false s.server
  toServer : Carries s.client.emitted s.server s.toServer
  toClient : Carries s.server.emitted s.client s.toClient
  connected : s.server.serial.codec.hasConnected = true

theorem LinkInv.initial : LinkInv jsonC jsonR (Link.new C R) where
  client := EndInv.initial false
  server := EndInv.initial true
  toServer := ⟨[], rfl, Or.inl (Or.inr ⟨rfl, Noisy.done⟩), fun _ => rfl⟩
  toClient := ⟨[], rfl, Or.inr ⟨rfl, rfl, rfl⟩, fun _ => rfl⟩
  connected := rfl

theorem LinkInv.step (s : Link C R) (a : LinkAction C R) (next : Link C R)
    (h : LinkInv jsonC jsonR s) (hstep : s.step jsonC jsonR a = some next) :
    LinkInv jsonC jsonR next := by
  cases a with
  | client a =>
      simp only [Link.step, Option.bind_eq_bind, Option.bind_eq_some_iff, Option.pure_def,
        Option.some.injEq] at hstep
      obtain ⟨toClient, htake, ⟨client, bytes⟩, hclient, rfl⟩ := hstep
      have hmove := step_move s.client client bytes a hclient
      exact {
        client := h.client.move hmove
        server := h.server
        toServer := h.toServer.sends hmove (fun hflag => by
          rw [h.connected] at hflag
          cases hflag)
        toClient := h.toClient.step htake hclient
        connected := h.connected }
  | server a =>
      simp only [Link.step, Option.bind_eq_bind, Option.bind_eq_some_iff, Option.pure_def,
        Option.some.injEq] at hstep
      obtain ⟨toServer, htake, ⟨server, bytes⟩, hserver, rfl⟩ := hstep
      have hmove := step_move s.server server bytes a hserver
      have hinv := h.server.move hmove
      exact {
        client := h.client
        server := hinv
        toServer := h.toServer.step htake hserver
        toClient := h.toClient.sends hmove (fun _ => hinv.first)
        connected := step_hasConnected hserver h.connected }

theorem map_fromSlice_of_toVec {M : Type} {json : Json M} (hjson : json.RoundTrips)
    (payloads : List Bytes) (sent : List M) (h : payloads.map .ok <+: sent.map json.toVec) :
    payloads.map json.fromSlice <+: sent.map .ok := by
  induction payloads generalizing sent with
  | nil => exact List.nil_prefix
  | cons payload payloads ih =>
      cases sent with
      | nil =>
          have hlength := h.length_le
          simp at hlength
      | cons message sent =>
          simp only [List.map_cons, List.cons_prefix_cons] at h ⊢
          exact ⟨hjson message payload h.1.symm, ih sent h.2⟩

theorem isPrefix_of_map_ok {ε M : Type} {xs ys : List M}
    (h : xs.map (Except.ok : M → Except ε M) <+: ys.map .ok) : xs <+: ys := by
  obtain ⟨part, hpart, heq⟩ := List.prefix_map_iff.mp h
  have hinj : Function.Injective (Except.ok : M → Except ε M) := fun a b hab => Except.ok.inj hab
  rwa [List.map_injective_iff.mpr hinj heq]

/-- One direction of the tarpc channel: what is delivered at the reader's end is
an initial part of what was sent at the writer's end. -/
theorem runner_isPrefix {M U V : Type} {json : Json M} {writer : Endpoint M U}
    {reader : Endpoint V M} {pipe : Bytes} (hjson : json.RoundTrips)
    (hout : RunnerOut json writer) (hin : RunnerIn json reader)
    (hcarries : Carries writer.emitted reader pipe) :
    reader.runnerDelivered <+: writer.runnerSent := by
  obtain ⟨unsent, hsent, _⟩ := hout
  obtain ⟨undelivered, hgot, _⟩ := hin
  obtain ⟨pending, hemitted, _, _⟩ := hcarries
  have hwire : (runnerPayloads writer.emitted).map .ok <+: writer.runnerSent.map json.toVec := by
    rw [hsent, runnerPayloads_append, List.map_append, List.append_assoc]
    exact List.prefix_append _ _
  have hpart : runnerPayloads reader.received <+: runnerPayloads writer.emitted := by
    rw [hemitted, runnerPayloads_append]
    exact List.prefix_append _ _
  have hall : reader.runnerDelivered.map (.ok : M → Except JsonError M) <+:
      writer.runnerSent.map .ok := by
    calc reader.runnerDelivered.map .ok
        <+: (runnerPayloads reader.received).map json.fromSlice := by
          rw [hgot, List.map_append, List.append_assoc]
          exact List.prefix_append _ _
      _ <+: (runnerPayloads writer.emitted).map json.fromSlice := hpart.map _
      _ <+: writer.runnerSent.map .ok := map_fromSlice_of_toVec hjson _ _ hwire
  exact isPrefix_of_map_ok hall

/-- The payloads that an end offers on its daemon channel; a closed channel
ends in an empty payload. -/
def Endpoint.daemonStream {T S : Type} (e : Endpoint T S) : List Bytes :=
  e.daemonOffered ++ if e.daemonClosed then [[]] else []

theorem daemon_isPrefix {T S U V : Type} {writer : Endpoint T S} {reader : Endpoint U V}
    {pipe : Bytes} (hout : DaemonOut writer) (hin : DaemonIn reader)
    (hcarries : Carries writer.emitted reader pipe) :
    reader.daemonDelivered <+: writer.daemonStream := by
  obtain ⟨undelivered, hgot, _⟩ := hin
  obtain ⟨pending, hemitted, _, _⟩ := hcarries
  have hwire : daemonPayloads writer.emitted <+: writer.daemonStream := by
    rcases hout.1 with ⟨rest, hoffered, _⟩ | ⟨hclosed, hlast, _⟩
    · rw [Endpoint.daemonStream, hoffered, daemonPayloads_append, List.append_assoc,
        List.append_assoc]
      exact List.prefix_append _ _
    · rw [hlast, Endpoint.daemonStream, hclosed]
      exact List.prefix_rfl
  calc reader.daemonDelivered
      <+: daemonPayloads reader.received := by
        rw [hgot, List.append_assoc]
        exact List.prefix_append _ _
    _ <+: daemonPayloads writer.emitted := by
        rw [hemitted, daemonPayloads_append]
        exact List.prefix_append _ _
    _ <+: writer.daemonStream := hwire

theorem Carries.received_isPrefix {T S : Type} {emitted : List Frame} {reader : Endpoint T S}
    {pipe : Bytes} (h : Carries emitted reader pipe) : reader.received <+: emitted := by
  obtain ⟨pending, hemitted, _, _⟩ := h
  exact ⟨pending, hemitted.symm⟩

/-- In every state that the two loops reach, each channel has delivered at one
end an initial part of what was offered at the other, the handshakes are
bounded, the server's first frame is a handshake, and no frame that was sent
has been skipped. -/
theorem link_delivers_in_order (hjsonC : jsonC.RoundTrips) (hjsonR : jsonR.RoundTrips)
    (actions : List (LinkAction C R)) (s : Link C R)
    (hrun : run (Link.step jsonC jsonR) (Link.new C R) actions = some s) :
    (s.client.runnerDelivered <+: s.server.runnerSent ∧
      s.server.runnerDelivered <+: s.client.runnerSent) ∧
    (s.client.daemonDelivered <+: s.server.daemonStream ∧
      s.server.daemonDelivered <+: s.client.daemonStream) ∧
    (s.client.emitted.count .handshake ≤ 1 ∧ s.server.emitted.count .handshake ≤ 2) ∧
    (s.server.emitted = [] ∨ s.server.emitted.head? = some .handshake) ∧
    (s.client.received <+: s.server.emitted ∧ s.server.received <+: s.client.emitted) := by
  have hinv : LinkInv jsonC jsonR s :=
    run_preserves (LinkInv.step) actions LinkInv.initial hrun
  have hclient : s.client.emitted.count .handshake ≤ 1 := by
    have hbound := hinv.client.handshakes
    simp only [Handshakes, List.count_append, if_true] at hbound
    omega
  have hreceived := hinv.toServer.received_isPrefix
  refine ⟨⟨?_, ?_⟩, ⟨?_, ?_⟩, ⟨hclient, ?_⟩, ?_, hinv.toClient.received_isPrefix, hreceived⟩
  · exact runner_isPrefix hjsonR hinv.server.runnerOut hinv.client.runnerIn hinv.toClient
  · exact runner_isPrefix hjsonC hinv.client.runnerOut hinv.server.runnerIn hinv.toServer
  · exact daemon_isPrefix hinv.server.daemonOut hinv.client.daemonIn hinv.toClient
  · exact daemon_isPrefix hinv.client.daemonOut hinv.server.daemonIn hinv.toServer
  · -- the server answers the client's only handshake once
    have hbound := hinv.server.handshakes
    have hcount := hreceived.sublist.count_le .handshake
    simp only [Handshakes, List.count_append, Bool.false_eq_true, if_false] at hbound
    omega
  · rcases hinv.server.first with hhead | ⟨hnil, _⟩
    · exact Or.inr hhead
    · exact Or.inl hnil

end Both

/-- The server offers a message before anything is sent. The handshake goes
first; the client reads the two frames in three reads. -/
def offerBeforeHandshake : List (LinkAction Bool Bool) :=
  [.server (.offerRunner true), .server (.poll [] none), .server (.complete true),
    .server (.poll [] none), .server (.complete true),
    .client (.poll [.ok [0, 0, 0, 9, 0, 0x4D],
      .ok [0x55, 0x4C, 0x4C, 0x56, 0x34, 0x44, 0x3B, 0, 0]] none),
    .client (.complete true),
    .client (.poll [.ok [0, 5, 1, 0x74, 0x72, 0x75, 0x65]] none),
    .client (.complete true)]

theorem offerBeforeHandshake_delivers :
    ∃ s, run (Link.step boolJson boolJson) (Link.new Bool Bool) offerBeforeHandshake = some s ∧
      s.client.runnerDelivered = [true] ∧ s.client.runnerDelivered <+: s.server.runnerSent := by
  have hdelivered : (run (Link.step boolJson boolJson) (Link.new Bool Bool)
      offerBeforeHandshake).map (fun s => s.client.runnerDelivered) = some [true] := by decide
  obtain ⟨s, hrun, hs⟩ := Option.map_eq_some_iff.mp hdelivered
  have hall := link_delivers_in_order boolJson_roundTrips boolJson_roundTrips
    offerBeforeHandshake s hrun
  exact ⟨s, hrun, hs, hall.1.1⟩

end MullvadAppTests.TestRpc
