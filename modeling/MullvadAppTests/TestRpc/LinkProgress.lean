import MullvadAppTests.TestRpc.CodecReconnect
import MullvadAppTests.TestRpc.MultiplexLink

/-!
The link does not get stuck. Bytes, queued messages and handshakes are worth some
work, and every step in which a loop gets anywhere uses work up, whatever the order
of the steps. When no such step is left and both loops still run, all that was
offered has been delivered. How fast the steps follow each other is not described.
-/

namespace MullvadAppTests.TestRpc

open Lib.LengthDelimited Lib.Incremental Lib.Transition

/-! ### What a poll takes from the buffer -/

theorem length_decode_le (codec : MultiplexCodec) (src : Bytes) :
    (decode codec src).2.2.length ≤ src.length := by
  have hskip := length_skipNoise_le codec.hasConnected src
  simp only [decode]
  split
  · exact hskip
  · exact (Lib.LengthDelimited.length_decode_le _ _ _).trans hskip

theorem tryDecode_length (s : SerialStream) :
    s.tryDecode.2.buffer.length ≤ s.buffer.length ∧
      ∀ f, s.tryDecode.1 = .ready (some (.ok f)) →
        s.tryDecode.2.buffer.length < s.buffer.length := by
  have hle := length_decode_le s.codec s.buffer
  rcases hcall : decode s.codec s.buffer with ⟨result, next, left⟩
  rw [hcall] at hle
  unfold SerialStream.tryDecode
  rw [hcall]
  rcases result with e | _ | f
  · split <;> simp_all
  · split
    · simp only
      split
      · split <;> simp_all
      · simp_all
    · simp_all
  · have hless := decode_consumes s.codec s.buffer f next left hcall
    split
    · exact ⟨hle, fun _ _ => hless⟩
    · simp

theorem pollNext_length (reads : List (Except IoError Bytes)) (s next : SerialStream)
    (poll : SerialPoll) (hpoll : s.pollNext reads = some (poll, next)) :
    next.buffer.length ≤ s.buffer.length + (readBytes reads).length ∧
      ∀ f, poll = .ready (some (.ok f)) →
        next.buffer.length < s.buffer.length + (readBytes reads).length := by
  induction reads generalizing s with
  | nil =>
      simp only [SerialStream.pollNext, Option.some.injEq] at hpoll
      have hcall := tryDecode_length s
      rwa [hpoll] at hcall
  | cons read reads ih =>
      have hcall := (tryDecode_length s).1
      rcases htry : s.tryDecode with ⟨first, after⟩
      rw [htry] at hcall
      simp only [SerialStream.pollNext, htry] at hpoll
      cases first with
      | ready item => cases hpoll
      | pending =>
          simp only at hpoll
          rcases read with e | _ | ⟨b, chunk⟩
          · simp only at hpoll
            split at hpoll
            · cases hpoll
              exact ⟨hcall.trans (Nat.le_add_right _ _), by simp⟩
            · cases hpoll
          · simp only at hpoll
            split at hpoll
            · split at hpoll
              · cases hpoll
                exact ⟨hcall.trans (Nat.le_add_right _ _), by simp⟩
              · cases hpoll
            · obtain ⟨hle, hless⟩ := ih _ hpoll
              simp only [readBytes, List.nil_append]
              constructor
              · simp only at hle hcall
                omega
              · intro f hf
                have hlt := hless f hf
                simp only at hlt hcall
                omega
          · obtain ⟨hle, hless⟩ := ih _ hpoll
            simp only [readBytes, List.length_append] at hle hless ⊢
            constructor
            · simp only at hcall
              omega
            · intro f hf
              have hlt := hless f hf
              simp only at hcall
              omega

/-! ### The work of an end -/

section Work

variable {T S : Type} (out : Json T) (into : Json S) (handshakeFwd : Bool) (perSent : Nat)

/-- Sending a frame is a step, and then each byte is on the line. -/
def Frame.work (f : Frame) : Nat := 1 + f.wire.length * perSent

/-- A token is taken from the queue, and a handshake is sent. -/
def handshakeWork : Nat := 1 + Frame.handshake.work perSent

def Op.work : Op S → Nat
  | .sendRunner _ | .sendDaemon _ | .forwardHandshake | .stop _ => 1
  | .queueHandshake => 1 + handshakeWork perSent
  | .sendSerial f => f.work perSent
  | .closeDaemon => (Frame.daemonRpc []).work perSent

/-- What the end of the loop may still take. -/
def lastWork : Nat := 1 + (Frame.daemonRpc []).work perSent

def Phase.work : Phase S → Nat
  | .selecting => lastWork perSent
  | .performing (.stop result) => (Op.stop result : Op S).work perSent
  | .performing .closeDaemon => (Op.closeDaemon : Op S).work perSent
  | .performing op => lastWork perSent + op.work perSent
  | .returned _ => 0

/-- A message that cannot be serialised ends the loop. -/
def messageWork (message : T) : Nat :=
  1 + match out.toVec message with
    | .ok serialized => (Frame.testRunner serialized).work perSent
    | .error _ => 0

def payloadWork (payload : Bytes) : Nat := 1 + (Frame.daemonRpc payload).work perSent

/-- `perRead` and `perSent` are what a byte is worth before it is decoded and when it
is on the line to the other end. -/
def Endpoint.work (perRead : Nat) (e : Endpoint T S) : Nat :=
  perRead * e.serial.buffer.length + handshakeWork perSent * e.handshakes +
    (e.runnerQueue.map (messageWork out perSent)).sum +
    (e.daemonQueue.map (payloadWork perSent)).sum + e.phase.work perSent

/-- A step in which the loop gets anywhere: it reads, takes something up or is done
with something. Channels that fail on their own are not the doing of the loop. -/
def Endpoint.busy (e : Endpoint T S) : EndAction T → Bool
  | .complete _ => true
  | .poll reads none =>
      readBytes reads ≠ [] ||
        match e.poll out into handshakeFwd reads none with
        | some next =>
            match next.phase with
            | .selecting => false
            | .performing _ | .returned _ => true
        | none => false
  | .poll _ (some _) => false
  | .offerRunner _ | .closeRunner | .offerDaemon _ | .closeDaemon => false

variable {out into handshakeFwd perSent}

theorem work_performing_le (op : Op S) :
    (Phase.performing op).work perSent ≤ lastWork perSent + op.work perSent := by
  cases op <;> simp [Phase.work]

theorem work_stop_lt (result : Except ForwardError Unit) :
    (Phase.performing (.stop result) : Phase S).work perSent < lastWork perSent := by
  simp only [Phase.work, Op.work, lastWork, Frame.work]
  omega

/-- What comes of a frame is worth less than one of its bytes. -/
theorem work_onSelected_frame {perRead : Nat} (f : Frame)
    (hperRead : (if handshakeFwd then 1 else 1 + handshakeWork perSent) < perRead) :
    (onSelected out into handshakeFwd (.serial (some (.ok f)))).work perSent < perRead := by
  have hone : 1 < perRead := by
    split at hperRead <;> omega
  cases f with
  | handshake => cases handshakeFwd <;> simpa [onSelected, Op.work] using hperRead
  | testRunner data =>
      simp only [onSelected]
      split <;> exact hone
  | daemonRpc data => exact hone

/-- What a local channel gives is worth less than it was in its queue. -/
theorem pollLocal_work {perRead : Nat} {e : Endpoint T S} {serial : SerialStream}
    {fault : Option Fault} {selected : Selected T} (hphase : e.phase = .selecting)
    (h : e.pollLocal fault = some selected) :
    Endpoint.work out perSent perRead {({e with serial} : Endpoint T S).take selected with
        phase := .performing (onSelected out into handshakeFwd selected)} <
      Endpoint.work out perSent perRead {e with serial} := by
  have hstop : ∀ result, (Phase.performing (.stop result) : Phase S).work perSent <
      lastWork perSent := work_stop_lt
  unfold Endpoint.pollLocal at h
  by_cases hsome : 0 < e.handshakes
  · rw [if_pos hsome] at h
    cases h
    obtain ⟨fewer, hfewer⟩ := Nat.exists_eq_add_one.mpr hsome
    simp only [Endpoint.work, Endpoint.take, onSelected, Phase.work, Op.work, hphase, hfewer,
      Nat.add_sub_cancel, handshakeWork, Nat.mul_add]
    omega
  rw [if_neg hsome] at h
  cases hrunner : e.pollRunner fault with
  | some item =>
      rw [hrunner] at h
      cases h
      rcases item with _ | err | message
      · simpa [Endpoint.work, Endpoint.take, onSelected, hphase, Phase.work] using hstop _
      · simpa [Endpoint.work, Endpoint.take, onSelected, hphase, Phase.work] using hstop _
      · obtain ⟨rest, hqueue⟩ := pollRunner_message hrunner
        cases hvec : out.toVec message with
        | error err =>
            have herror := hstop (.error (.serializeFailed err))
            simp only [Phase.work] at herror
            simp only [Endpoint.work, Endpoint.take, onSelected, hphase, hqueue, List.tail_cons,
              List.map_cons, List.sum_cons, messageWork, hvec, Phase.work]
            omega
        | ok serialized =>
            simp only [Endpoint.work, Endpoint.take, onSelected, hphase, hqueue, List.tail_cons,
              List.map_cons, List.sum_cons, messageWork, hvec, Phase.work, Op.work]
            omega
  | none =>
      rw [hrunner] at h
      obtain ⟨item, hdaemon, rfl⟩ := Option.map_eq_some_iff.mp h
      rcases item with _ | err | payload
      · simp only [Endpoint.work, Endpoint.take, onSelected, hphase, Phase.work, Op.work, lastWork]
        omega
      · simpa [Endpoint.work, Endpoint.take, onSelected, hphase, Phase.work] using hstop _
      · obtain ⟨rest, hqueue⟩ := pollDaemon_payload hdaemon
        simp only [Endpoint.work, Endpoint.take, onSelected, hphase, hqueue, List.tail_cons,
          List.map_cons, List.sum_cons, payloadWork, Phase.work, Op.work]
        omega

/-- A poll uses up work for what it takes up, and none for what it leaves. -/
theorem poll_work {perRead : Nat} {e next : Endpoint T S} {reads : List (Except IoError Bytes)}
    {fault : Option Fault} (hphase : e.phase = .selecting)
    (hperRead : (if handshakeFwd then 1 else 1 + handshakeWork perSent) < perRead)
    (h : e.poll out into handshakeFwd reads fault = some next) :
    next.work out perSent perRead ≤ e.work out perSent perRead + perRead * (readBytes reads).length ∧
      (next.phase = .selecting ∨ next.work out perSent perRead <
        e.work out perSent perRead + perRead * (readBytes reads).length) := by
  unfold Endpoint.poll at h
  rcases hpoll : e.serial.pollNext reads with _ | ⟨poll, serial⟩
  · rw [hpoll] at h
    cases h
  rw [hpoll] at h
  obtain ⟨hle, hless⟩ := pollNext_length reads e.serial serial poll hpoll
  have hbuffer := Nat.mul_le_mul_left perRead hle
  rw [Nat.mul_add] at hbuffer
  have hserial : Endpoint.work out perSent perRead {e with serial} ≤
      e.work out perSent perRead + perRead * (readBytes reads).length := by
    simp only [Endpoint.work]
    omega
  cases poll with
  | ready item =>
      simp only [Option.some.injEq] at h
      subst h
      rcases item with _ | err | f
      · have hstop : (Phase.performing (.stop (.ok ())) : Phase S).work perSent <
            lastWork perSent := work_stop_lt _
        simp only [Endpoint.work, Endpoint.take, onSelected, hphase, Phase.work] at hstop ⊢
        omega
      · have hstop : (Phase.performing (.stop (.error (.serialConnection err))) :
            Phase S).work perSent < lastWork perSent := work_stop_lt _
        simp only [Endpoint.work, Endpoint.take, onSelected, hphase, Phase.work] at hstop ⊢
        omega
      · -- at least one byte is gone, and it pays for what the frame brings
        have hbyte := Nat.mul_le_mul_left perRead (Nat.succ_le_of_lt (hless f rfl))
        rw [Nat.mul_add, Nat.mul_succ] at hbyte
        have hop : (onSelected out into handshakeFwd (.serial (some (.ok f)))).work perSent <
            perRead := work_onSelected_frame f hperRead
        have hle : (Phase.performing
            (onSelected out into handshakeFwd (.serial (some (.ok f))))).work perSent ≤ _ :=
          work_performing_le _
        simp only [Endpoint.work, Endpoint.take, hphase]
        simp only [Phase.work] at hle ⊢
        omega
  | pending =>
      simp only at h
      cases hlocal : e.pollLocal fault with
      | none =>
          rw [hlocal, Option.some.injEq] at h
          subst h
          exact ⟨hserial, .inl hphase⟩
      | some selected =>
          rw [hlocal, Option.some.injEq] at h
          subst h
          have hlt : Endpoint.work out perSent perRead
              {({e with serial} : Endpoint T S).take selected with
                phase := .performing (onSelected out into handshakeFwd selected)} < _ :=
            (pollLocal_work hphase hlocal).trans_le hserial
          exact ⟨hlt.le, .inr hlt⟩

theorem finish_work {perRead : Nat} {e : Endpoint T S} {op : Op S} (ok : Bool)
    (hphase : e.phase = .performing op) :
    (e.finish op ok).1.work out perSent perRead + perSent * (e.finish op ok).2.length <
      e.work out perSent perRead := by
  have hlast : 0 < lastWork perSent := by
    unfold lastWork
    omega
  cases op with
  | sendRunner message | sendDaemon data =>
      cases ok <;> simp [Endpoint.finish, Endpoint.work, Phase.work, Op.work, hphase]
  | forwardHandshake => simp [Endpoint.finish, Endpoint.work, Phase.work, Op.work, hphase]
  | queueHandshake =>
      simp only [Endpoint.finish, Endpoint.work, Phase.work, Op.work, hphase, Nat.mul_add,
        List.length_nil]
      omega
  | sendSerial f =>
      by_cases hfits : f.Fits
      · cases ok
        · simp [Endpoint.finish, encode_of_fits f hfits, Endpoint.work, Phase.work, hphase, hlast]
        · simp only [Endpoint.finish, encode_of_fits f hfits, Endpoint.work, Phase.work, Op.work,
            Frame.work, hphase, Nat.mul_comm perSent, if_true]
          omega
      · simp [Endpoint.finish, encode_of_not_fits f hfits, Endpoint.work, Phase.work, hphase, hlast]
  | closeDaemon =>
      have hfits : (Frame.daemonRpc []).Fits := by decide
      cases ok
      · simp [Endpoint.finish, encode_of_fits _ hfits, Endpoint.work, Phase.work, Op.work,
          Frame.work, hphase]
      · simp only [Endpoint.finish, encode_of_fits _ hfits, Endpoint.work, Phase.work, Op.work,
          Frame.work, hphase, Nat.mul_comm perSent]
        omega
  | stop result => simp [Endpoint.finish, Endpoint.work, Phase.work, Op.work, hphase]

theorem step_work {perRead : Nat} {e next : Endpoint T S} {bytes : Bytes} {a : EndAction T}
    (hperRead : (if handshakeFwd then 1 else 1 + handshakeWork perSent) < perRead)
    (hbusy : e.busy out into handshakeFwd a = true)
    (hstep : e.step out into handshakeFwd a = some (next, bytes)) :
    next.work out perSent perRead + perSent * bytes.length <
      e.work out perSent perRead + (perRead + 1) * (readBytes a.reads).length := by
  cases a with
  | offerRunner | closeRunner | offerDaemon | closeDaemon => cases hbusy
  | complete ok =>
      simp only [Endpoint.step] at hstep
      split at hstep
      · next op hphase =>
        have hfinish : (e.finish op ok).1.work out perSent perRead +
            perSent * (e.finish op ok).2.length < e.work out perSent perRead :=
          finish_work ok hphase
        rw [Option.some.inj hstep] at hfinish
        simpa [EndAction.reads, readBytes] using hfinish
      · cases hstep
  | poll reads fault =>
      simp only [Endpoint.step] at hstep
      split at hstep
      · next hphase =>
        obtain ⟨after, hpoll, heq⟩ := Option.map_eq_some_iff.mp hstep
        cases heq
        obtain ⟨hle, hlt⟩ := poll_work hphase hperRead hpoll
        rw [List.length_nil, Nat.mul_zero, Nat.add_zero, Nat.succ_mul]
        rcases hlt with hselecting | hlt
        · have hread : 0 < (readBytes reads).length := by
            cases fault with
            | some fault => cases hbusy
            | none =>
                simp only [Endpoint.busy, hpoll, hselecting, Bool.or_false,
                  decide_eq_true_eq] at hbusy
                exact List.length_pos_iff.mpr hbusy
          simp only [EndAction.reads]
          omega
        · simp only [EndAction.reads]
          omega
      · cases hstep

end Work

/-! ### The work of the link -/

section Both

variable {C R : Type} (jsonC : Json C) (jsonR : Json R)

/-- What a byte is worth on the line to the client. -/
def toClientWork : Nat := 3

/-- What a byte is worth in the buffer of the server, which answers a handshake. -/
def serverReadWork : Nat := 2 + handshakeWork toClientWork

def toServerWork : Nat := serverReadWork + 1

def Link.work (s : Link C R) : Nat :=
  s.client.work jsonC toServerWork 2 + s.server.work jsonR toClientWork serverReadWork +
    toServerWork * s.toServer.length + toClientWork * s.toClient.length

def Link.busy (s : Link C R) : LinkAction C R → Bool
  | .client a => s.client.busy jsonC jsonR true a
  | .server a => s.server.busy jsonR jsonC false a

/-- No loop gets anywhere any more. -/
def Link.AtRest (s : Link C R) : Prop :=
  ∀ a, s.busy jsonC jsonR a = true → s.step jsonC jsonR a = none

variable {jsonC jsonR}

theorem link_work_lt (s : Link C R) (a : LinkAction C R) (next : Link C R)
    (hbusy : s.busy jsonC jsonR a = true) (hstep : s.step jsonC jsonR a = some next) :
    next.work jsonC jsonR < s.work jsonC jsonR := by
  cases a with
  | client a =>
      simp only [Link.step, Option.bind_eq_bind, Option.bind_eq_some_iff, Option.pure_def,
        Option.some.injEq] at hstep
      obtain ⟨toClient, htake, ⟨client, bytes⟩, hclient, rfl⟩ := hstep
      have hwork : client.work jsonC toServerWork 2 + toServerWork * bytes.length <
          s.client.work jsonC toServerWork 2 + (2 + 1) * (readBytes a.reads).length :=
        step_work (by simp) hbusy hclient
      have hpipe : s.toClient.length = (readBytes a.reads).length + toClient.length := by
        rw [takeReads_eq htake, List.length_append]
      simp only [Link.work, List.length_append, Nat.mul_add, hpipe, toClientWork]
      simp only [Nat.add_mul] at hwork
      omega
  | server a =>
      simp only [Link.step, Option.bind_eq_bind, Option.bind_eq_some_iff, Option.pure_def,
        Option.some.injEq] at hstep
      obtain ⟨toServer, htake, ⟨server, bytes⟩, hserver, rfl⟩ := hstep
      have hwork : server.work jsonR toClientWork serverReadWork + toClientWork * bytes.length <
          s.server.work jsonR toClientWork serverReadWork +
            (serverReadWork + 1) * (readBytes a.reads).length := by
        apply step_work ?_ hbusy hserver
        simp only [serverReadWork, Bool.false_eq_true, if_false]
        omega
      have hpipe : s.toServer.length = (readBytes a.reads).length + toServer.length := by
        rw [takeReads_eq htake, List.length_append]
      simp only [Link.work, List.length_append, Nat.mul_add, hpipe, toServerWork] at hwork ⊢
      omega

/-! ### At rest -/

section Direction

variable {T S : Type} {out : Json T} {into : Json S} {handshakeFwd : Bool}

/-- A decoder that has said that it needs more does need more. -/
def Endpoint.ReadAll (e : Endpoint T S) : Prop :=
  e.serial.readable = false → SessionQuiet e.serial.codec e.serial.buffer

/-- As `linkResidual`, with what is known when the decoder asks for more. -/
def settledResidual : Residual decode where
  holds := LinkPending
  quiet := SessionQuiet
  step := by
    rintro codec src future frames (hsession | ⟨rfl, hbytes, rfl⟩)
    · rcases sessionResidual.step codec src future frames hsession with
        ⟨f, rest, next, left, hcall, hlength, hframes, hnext⟩ | ⟨next, left, hcall, hquiet, hnext⟩
      · exact Or.inl ⟨f, rest, next, left, hcall, hlength, hframes, Or.inl hnext⟩
      · exact Or.inr ⟨next, left, hcall, hquiet, Or.inl hnext⟩
    · obtain ⟨rfl, rfl⟩ := List.append_eq_nil_iff.mp hbytes
      exact Or.inr ⟨⟨.head, false⟩, [], rfl, rfl, Or.inr ⟨rfl, rfl, rfl⟩⟩

theorem tryDecode_quiet (s : SerialStream) (future : Bytes) (items : List Frame)
    (h : LinkPending s.codec (s.buffer ++ future) items)
    (hread : s.readable = false → SessionQuiet s.codec s.buffer) :
    s.tryDecode.2.readable = false → SessionQuiet s.tryDecode.2.codec s.tryDecode.2.buffer := by
  by_cases hreadable : s.readable
  · rcases settledResidual.step s.codec s.buffer future items h with
      ⟨f, rest, next, left, hcall, _, _, _⟩ | ⟨next, left, hcall, hquiet, _⟩
    · simp [SerialStream.tryDecode, hreadable, hcall]
    · intro _
      simp only [SerialStream.tryDecode, hreadable, hcall, if_true]
      split
      · split
        · exact hquiet
        · exact hquiet
      · exact hquiet
  · simpa [SerialStream.tryDecode, hreadable] using hread

theorem unreadable_of_pending {s : SerialStream} (h : s.tryDecode.1 = .pending) :
    s.tryDecode.2.readable = false := by
  unfold SerialStream.tryDecode at h ⊢
  split
  · next hreadable =>
    rw [if_pos hreadable] at h
    rcases hcall : decode s.codec s.buffer with ⟨result, codec, buffer⟩
    rw [hcall] at h
    rcases result with e | _ | f
    · cases h
    · simp only at h ⊢
      split
      · split <;> rfl
      · rfl
    · cases h
  · next hreadable => simpa using hreadable

theorem pollNext_quiet (reads : List (Except IoError Bytes)) (s next : SerialStream)
    (poll : SerialPoll) (future : Bytes) (items : List Frame)
    (hpoll : s.pollNext reads = some (poll, next))
    (h : LinkPending s.codec (s.buffer ++ (readBytes reads ++ future)) items)
    (hread : s.readable = false → SessionQuiet s.codec s.buffer) :
    next.readable = false → SessionQuiet next.codec next.buffer := by
  induction reads generalizing s with
  | nil =>
      simp only [SerialStream.pollNext, Option.some.injEq] at hpoll
      have hcall := tryDecode_quiet s future items h hread
      rwa [hpoll] at hcall
  | cons read reads ih =>
      have hcall := tryDecode_residual linkResidual s (readBytes (read :: reads) ++ future) items h
      have hquiet := tryDecode_quiet s _ items h hread
      rcases htry : s.tryDecode with ⟨first, after⟩
      rw [htry] at hcall hquiet
      simp only [SerialStream.pollNext, htry] at hpoll
      cases first with
      | ready item => cases hpoll
      | pending =>
          simp only at hpoll
          have hafter : LinkPending after.codec
              (after.buffer ++ (readBytes (read :: reads) ++ future)) items := by
            rcases hcall with ⟨_, _, hready, _⟩ | ⟨_, hafter⟩
            · cases hready
            · exact hafter
          rcases read with e | _ | ⟨b, chunk⟩
          · simp only at hpoll
            split at hpoll
            · cases hpoll
              exact hquiet
            · cases hpoll
          · simp only at hpoll
            split at hpoll
            · split at hpoll
              · cases hpoll
                exact hquiet
              · cases hpoll
            · exact ih _ hpoll hafter (by simp)
          · refine ih _ hpoll ?_ (by simp)
            simpa [readBytes] using hafter

/-- A step of an end polls the serial line or leaves it alone, so it stays true. -/
theorem Endpoint.ReadAll.step {emitted : List Frame} {e next : Endpoint T S} {closed : Bool}
    {pipe rest bytes : Bytes} {a : EndAction T} (hread : e.ReadAll) (h : Carries emitted e pipe)
    (htake : takeReads closed pipe a.reads = some rest)
    (hstep : e.step out into handshakeFwd a = some (next, bytes)) : next.ReadAll := by
  rcases step_reader hstep with ⟨reads, fault, rfl, hpoll⟩ | ⟨_, hserial, _⟩
  · obtain ⟨poll, hserial, _⟩ := poll_reader e next reads fault hpoll
    obtain ⟨pending, _, hpending, _⟩ := h
    rw [takeReads_eq htake] at hpending
    exact pollNext_quiet reads e.serial next.serial poll rest pending hserial hpending hread
  · unfold Endpoint.ReadAll
    rwa [hserial]

/-- What is known of the reader's end when nothing is left to do there. -/
theorem idle_of_rest {e : Endpoint T S} {closed : Bool} {pipe : Bytes}
    (hrunning : e.stopped = false)
    (hrest : ∀ a rest, e.busy out into handshakeFwd a = true →
      takeReads closed pipe a.reads = some rest → e.step out into handshakeFwd a = none) :
    e.phase = .selecting ∧ e.serial.tryDecode.1 = .pending ∧ pipe = [] ∧
      e.pollLocal none = none := by
  have hphase : e.phase = .selecting := by
    cases hphase : e.phase with
    | selecting => rfl
    | performing op =>
        have hnone := hrest (.complete true) pipe rfl rfl
        simp [Endpoint.step, hphase] at hnone
    | returned result => simp [Endpoint.stopped, hphase] at hrunning
  have hpoll : ∀ reads rest next, takeReads closed pipe reads = some rest →
      e.poll out into handshakeFwd reads none = some next →
      readBytes reads = [] ∧ next.phase = .selecting := by
    intro reads rest next htake hnext
    by_contra hmoves
    have hbusy : e.busy out into handshakeFwd (.poll reads none) = true := by
      simp only [Endpoint.busy, hnext]
      cases hafter : next.phase <;> simp_all
    have hnone := hrest (.poll reads none) rest hbusy htake
    simp [Endpoint.step, hphase, hnext] at hnone
  have hpending : e.serial.tryDecode.1 = .pending := by
    rcases htry : e.serial.tryDecode with ⟨poll, after⟩
    cases poll with
    | pending => rfl
    | ready item =>
        obtain ⟨next, hnext, op, hop⟩ : ∃ next,
            e.poll out into handshakeFwd [] none = some next ∧
              ∃ op, next.phase = .performing op := by
          simp [Endpoint.poll, SerialStream.pollNext, htry]
        have hselecting := (hpoll [] pipe next rfl hnext).2
        rw [hop] at hselecting
        cases hselecting
  rcases htry : e.serial.tryDecode with ⟨poll, after⟩
  obtain rfl : poll = .pending := by
    rw [htry] at hpending
    exact hpending
  refine ⟨hphase, rfl, ?_, ?_⟩
  · cases hpipe : pipe with
    | nil => rfl
    | cons b more =>
        have htake : takeReads closed pipe [.ok (b :: more)] = some [] := by
          simp [takeReads, hpipe]
        obtain ⟨next, hnext⟩ :
            ∃ next, e.poll out into handshakeFwd [.ok (b :: more)] none = some next := by
          simp only [Endpoint.poll, SerialStream.pollNext, htry]
          split
          · next hnone => cases hnone
          · exact ⟨_, rfl⟩
          · split
            · exact ⟨_, rfl⟩
            · exact ⟨_, rfl⟩
        have hread := (hpoll _ [] next htake hnext).1
        simp [readBytes] at hread
  · cases hlocal : e.pollLocal none with
    | none => rfl
    | some selected =>
        obtain ⟨next, hnext, op, hop⟩ : ∃ next,
            e.poll out into handshakeFwd [] none = some next ∧
              ∃ op, next.phase = .performing op := by
          simp [Endpoint.poll, SerialStream.pollNext, htry, hlocal]
        have hselecting := (hpoll [] pipe next rfl hnext).2
        rw [hop] at hselecting
        cases hselecting

/-- The end waits for every source. -/
def Endpoint.idle (e : Endpoint T S) : Bool :=
  match e.phase with
  | .selecting => e.serial.tryDecode.1 = .pending && (e.pollLocal none).isNone
  | .performing _ | .returned _ => false

theorem rest_of_idle {e : Endpoint T S} (hidle : e.idle = true) (a : EndAction T) (rest : Bytes)
    (hbusy : e.busy out into handshakeFwd a = true)
    (htake : takeReads false [] a.reads = some rest) :
    e.step out into handshakeFwd a = none := by
  unfold Endpoint.idle at hidle
  split at hidle
  · next hphase =>
    obtain ⟨hread, hlocal⟩ := Bool.and_eq_true_iff.mp hidle
    cases a with
    | offerRunner | closeRunner | offerDaemon | closeDaemon => cases hbusy
    | complete ok => simp [Endpoint.step, hphase]
    | poll reads fault =>
        obtain rfl : reads = [] := by
          rcases reads with _ | ⟨e | _ | ⟨b, chunk⟩, reads⟩
          · rfl
          · cases htake
          · cases htake
          · cases htake
        cases fault with
        | some fault => cases hbusy
        | none =>
            rw [decide_eq_true_eq] at hread
            rw [Option.isNone_iff_eq_none] at hlocal
            rcases htry : e.serial.tryDecode with ⟨poll, after⟩
            rw [htry] at hread
            simp only at hread
            subst hread
            simp [Endpoint.busy, Endpoint.poll, SerialStream.pollNext, htry, hlocal, hphase,
              readBytes] at hbusy
  · cases hidle
  · cases hidle

theorem running_of_idle {e : Endpoint T S} (hidle : e.idle = true) : e.stopped = false := by
  unfold Endpoint.idle at hidle
  unfold Endpoint.stopped
  cases hphase : e.phase with
  | selecting | performing => rfl
  | returned => simp [hphase] at hidle

theorem queues_of_pollLocal {e : Endpoint T S} (h : e.pollLocal none = none) :
    e.runnerQueue = [] ∧ e.daemonQueue = [] := by
  unfold Endpoint.pollLocal at h
  split at h
  · cases h
  · cases hrunner : e.runnerQueue with
    | nil =>
        cases hdaemon : e.daemonQueue with
        | nil => exact ⟨rfl, rfl⟩
        | cons payload rest =>
            exfalso
            cases hclosed : e.runnerClosed <;>
              simp [Endpoint.pollRunner, Endpoint.pollDaemon, hrunner, hdaemon, hclosed] at h
    | cons message rest => simp [Endpoint.pollRunner, hrunner] at h

/-- All that was emitted at the other end has been received. -/
theorem received_of_rest {emitted : List Frame} {e : Endpoint T S}
    (hcarries : Carries emitted e []) (hread : e.ReadAll)
    (hpending : e.serial.tryDecode.1 = .pending) : e.received = emitted := by
  obtain ⟨pending, hemitted, hlink, _⟩ := hcarries
  have hquiet := tryDecode_quiet e.serial [] pending hlink hread
  have hafter : LinkPending e.serial.tryDecode.2.codec e.serial.tryDecode.2.buffer pending := by
    rcases tryDecode_residual linkResidual e.serial [] pending hlink with
      ⟨f, _, hready, _⟩ | ⟨_, hafter⟩
    · rw [hpending] at hready
      cases hready
    · rwa [List.append_nil] at hafter
  have hunreadable := unreadable_of_pending hpending
  have hnone : pending = [] := by
    have hsettled := hquiet hunreadable
    rcases hafter with (⟨hflag, lone, rest, tail, _, hscan, _⟩ | hframes) | ⟨_, _, hnone⟩
    · simp only [SessionQuiet, hflag, Bool.false_eq_true, if_false] at hsettled
      exact absurd hsettled hscan.findSignature_ne_none
    · simp only [SessionQuiet, hframes.1, if_true] at hsettled
      exact (pending_starved hframes hsettled).1
    · exact hnone
  rw [hemitted, hnone, List.append_nil]

theorem runner_all {M U V : Type} {json : Json M} {writer : Endpoint M U} {reader : Endpoint V M}
    (hjson : json.RoundTrips) (hout : RunnerOut json writer) (hin : RunnerIn json reader)
    (hwriter : writer.phase = .selecting) (hqueue : writer.runnerQueue = [])
    (hreader : reader.phase = .selecting) (hreceived : reader.received = writer.emitted) :
    reader.runnerDelivered = writer.runnerSent := by
  obtain ⟨unsent, hsent, hunsent⟩ := hout
  obtain ⟨undelivered, hgot, hundelivered⟩ := hin
  have hwire : (runnerPayloads writer.emitted).map .ok = writer.runnerSent.map json.toVec := by
    rw [hsent, hunsent (by simp [hwriter]), hqueue, hwriter]
    simp
  have hread : (runnerPayloads writer.emitted).map json.fromSlice =
      reader.runnerDelivered.map .ok := by
    rw [← hreceived, hgot, hundelivered (by simp [hreader]), hreader]
    simp
  have hall : (runnerPayloads writer.emitted).map json.fromSlice <+: writer.runnerSent.map .ok := by
    apply map_fromSlice_of_toVec hjson
    rw [hwire]
  rw [hread] at hall
  apply (isPrefix_of_map_ok hall).eq_of_length
  calc reader.runnerDelivered.length
      = (runnerPayloads writer.emitted).length := by
        simpa using (congrArg List.length hread).symm
    _ = writer.runnerSent.length := by simpa using congrArg List.length hwire

theorem daemon_all {T S U V : Type} {writer : Endpoint T S} {reader : Endpoint U V}
    (hout : DaemonOut writer) (hin : DaemonIn reader) (hwriter : writer.phase = .selecting)
    (hqueue : writer.daemonQueue = []) (hreader : reader.phase = .selecting)
    (hreceived : reader.received = writer.emitted) :
    reader.daemonDelivered = writer.daemonOffered := by
  obtain ⟨undelivered, hgot, hundelivered⟩ := hin
  rw [hreceived, hundelivered (by simp [hreader]), hreader] at hgot
  rcases hout.1 with ⟨unsent, hoffered, hunsent⟩ | ⟨_, _, hdead, _⟩
  · rw [hunsent (by simp [hwriter]), hqueue, hwriter] at hoffered
    simpa [hoffered] using hgot.symm
  · simp [hwriter] at hdead

end Direction

variable (jsonC jsonR) in
structure SettledInv (s : Link C R) : Prop where
  link : LinkInv jsonC jsonR s
  client : s.client.ReadAll
  server : s.server.ReadAll

theorem SettledInv.initial : SettledInv jsonC jsonR (Link.new C R) where
  link := LinkInv.initial
  client := fun _ => rfl
  server := fun _ => ⟨Nat.zero_lt_succ 3, .inl Nat.zero_lt_two⟩

theorem SettledInv.step (s : Link C R) (a : LinkAction C R) (next : Link C R)
    (h : SettledInv jsonC jsonR s) (hstep : s.step jsonC jsonR a = some next) :
    SettledInv jsonC jsonR next := by
  have hlink := LinkInv.step s a next h.link hstep
  cases a with
  | client a =>
      simp only [Link.step, Option.bind_eq_bind, Option.bind_eq_some_iff, Option.pure_def,
        Option.some.injEq] at hstep
      obtain ⟨toClient, htake, ⟨client, bytes⟩, hclient, rfl⟩ := hstep
      exact ⟨hlink, h.client.step h.link.toClient htake hclient, h.server⟩
  | server a =>
      simp only [Link.step, Option.bind_eq_bind, Option.bind_eq_some_iff, Option.pure_def,
        Option.some.injEq] at hstep
      obtain ⟨toServer, htake, ⟨server, bytes⟩, hserver, rfl⟩ := hstep
      exact ⟨hlink, h.client, h.server.step h.link.toServer htake hserver⟩

theorem atRest_of_idle {s : Link C R} (hclient : s.client.idle = true)
    (hserver : s.server.idle = true) (htoServer : s.toServer = []) (htoClient : s.toClient = []) :
    s.AtRest jsonC jsonR := by
  rintro (a | a) hbusy
  · cases htake : takeReads s.server.stopped s.toClient a.reads with
    | none => simp [Link.step, htake]
    | some rest =>
        rw [running_of_idle hserver, htoClient] at htake
        simp [Link.step, rest_of_idle hclient a rest hbusy htake]
  · cases htake : takeReads s.client.stopped s.toServer a.reads with
    | none => simp [Link.step, htake]
    | some rest =>
        rw [running_of_idle hclient, htoServer] at htake
        simp [Link.step, rest_of_idle hserver a rest hbusy htake]

/-- Nothing is under way on a link at rest. -/
theorem delivered_of_rest (hjsonC : jsonC.RoundTrips) (hjsonR : jsonR.RoundTrips)
    {s : Link C R} (h : SettledInv jsonC jsonR s) (hrest : s.AtRest jsonC jsonR)
    (hclient : s.client.stopped = false) (hserver : s.server.stopped = false) :
    (s.client.runnerDelivered = s.server.runnerSent ∧
      s.server.runnerDelivered = s.client.runnerSent) ∧
    s.client.daemonDelivered = s.server.daemonOffered ∧
      s.server.daemonDelivered = s.client.daemonOffered := by
  have hcrest : ∀ a rest, s.client.busy jsonC jsonR true a = true →
      takeReads s.server.stopped s.toClient a.reads = some rest →
      s.client.step jsonC jsonR true a = none := by
    intro a rest hbusy htake
    have hnone := hrest (.client a) hbusy
    cases hstep : s.client.step jsonC jsonR true a with
    | none => rfl
    | some pair => simp [Link.step, htake, hstep] at hnone
  have hsrest : ∀ a rest, s.server.busy jsonR jsonC false a = true →
      takeReads s.client.stopped s.toServer a.reads = some rest →
      s.server.step jsonR jsonC false a = none := by
    intro a rest hbusy htake
    have hnone := hrest (.server a) hbusy
    cases hstep : s.server.step jsonR jsonC false a with
    | none => rfl
    | some pair => simp [Link.step, htake, hstep] at hnone
  obtain ⟨hcphase, hcpending, hcpipe, hclocal⟩ := idle_of_rest hclient hcrest
  obtain ⟨hsphase, hspending, hspipe, hslocal⟩ := idle_of_rest hserver hsrest
  obtain ⟨hcrunner, hcdaemon⟩ := queues_of_pollLocal hclocal
  obtain ⟨hsrunner, hsdaemon⟩ := queues_of_pollLocal hslocal
  have htoClient := received_of_rest (hcpipe ▸ h.link.toClient) h.client hcpending
  have htoServer := received_of_rest (hspipe ▸ h.link.toServer) h.server hspending
  refine ⟨⟨?_, ?_⟩, ?_, ?_⟩
  · exact runner_all hjsonR h.link.server.runnerOut h.link.client.runnerIn hsphase hsrunner hcphase
      htoClient
  · exact runner_all hjsonC h.link.client.runnerOut h.link.server.runnerIn hcphase hcrunner hsphase
      htoServer
  · exact daemon_all h.link.server.daemonOut h.link.client.daemonIn hsphase hsdaemon hcphase
      htoClient
  · exact daemon_all h.link.client.daemonOut h.link.server.daemonIn hcphase hcdaemon hsphase
      htoServer

/-- From every state that is reached, the loops take at most as many steps as their
work allows, in whatever order. When they come to rest and neither has ended, each
channel has delivered at one end all that was ever offered at the other. -/
theorem link_settles (hjsonC : jsonC.RoundTrips) (hjsonR : jsonR.RoundTrips)
    (actions moves : List (LinkAction C R)) (s last : Link C R)
    (hrun : run (Link.step jsonC jsonR) (Link.new C R) actions = some s)
    (hbusy : Meets (Link.step jsonC jsonR) (fun s a => s.busy jsonC jsonR a = true) s moves)
    (hmoves : run (Link.step jsonC jsonR) s moves = some last) :
    moves.length + last.work jsonC jsonR ≤ s.work jsonC jsonR ∧
      (last.AtRest jsonC jsonR → last.client.stopped = false → last.server.stopped = false →
        (last.client.runnerDelivered = last.server.runnerSent ∧
          last.server.runnerDelivered = last.client.runnerSent) ∧
        last.client.daemonDelivered = last.server.daemonOffered ∧
          last.server.daemonDelivered = last.client.daemonOffered) := by
  refine ⟨length_le_of_decreases link_work_lt moves hbusy hmoves, ?_⟩
  have hstart : SettledInv jsonC jsonR s := run_preserves SettledInv.step actions .initial hrun
  have hlast : SettledInv jsonC jsonR last := run_preserves SettledInv.step moves hstart hmoves
  exact delivered_of_rest hjsonC hjsonR hlast

end Both

/-- Both applications offer a message before the loops start. -/
def offers : List (LinkAction Bool Bool) :=
  [.server (.offerRunner true), .client (.offerRunner false)]

/-- Each loop reads once. The server answers the handshake of the client before it
turns to its own message. -/
def settling : List (LinkAction Bool Bool) :=
  [.client (.poll [] none), .client (.complete true), .client (.poll [] none),
    .client (.complete true),
    .server (.poll [.ok (Frame.handshake.wire ++
      (Frame.testRunner [0x66, 0x61, 0x6C, 0x73, 0x65]).wire)] none),
    .server (.complete true), .server (.poll [] none), .server (.complete true),
    .server (.poll [] none), .server (.complete true), .server (.poll [] none),
    .server (.complete true), .server (.poll [] none), .server (.complete true),
    .client (.poll [.ok (Frame.handshake.wire ++ Frame.handshake.wire ++
      (Frame.testRunner [0x74, 0x72, 0x75, 0x65]).wire)] none),
    .client (.complete true), .client (.poll [] none), .client (.complete true),
    .client (.poll [] none), .client (.complete true)]

theorem offers_settle :
    ∃ s last, run (Link.step boolJson boolJson) (Link.new Bool Bool) offers = some s ∧
      run (Link.step boolJson boolJson) s settling = some last ∧
      last.AtRest boolJson boolJson ∧ settling.length ≤ s.work boolJson boolJson ∧
      last.client.runnerDelivered = last.server.runnerSent := by
  have hoffers : ∃ s, run (Link.step boolJson boolJson) (Link.new Bool Bool) offers = some s :=
    ⟨_, rfl⟩
  obtain ⟨s, hs⟩ := hoffers
  have hsettling : (run (Link.step boolJson boolJson) (Link.new Bool Bool)
      (offers ++ settling)).map (fun s => (s.client.idle, s.server.idle, s.toServer, s.toClient)) =
      some (true, true, [], []) := by decide
  have hbusy : Meets (Link.step boolJson boolJson) (fun s a => s.busy boolJson boolJson a = true)
      s settling := by
    cases hs
    decide
  obtain ⟨last, hlast, hfields⟩ := Option.map_eq_some_iff.mp hsettling
  simp only [Prod.mk.injEq] at hfields
  obtain ⟨hclient, hserver, htoServer, htoClient⟩ := hfields
  rw [run_append, hs, Option.bind_some] at hlast
  have hrest : last.AtRest boolJson boolJson := atRest_of_idle hclient hserver htoServer htoClient
  obtain ⟨hlength, hall⟩ := link_settles boolJson_roundTrips boolJson_roundTrips offers settling
    s last hs hbusy hlast
  have hdelivered := hall hrest (running_of_idle hclient) (running_of_idle hserver)
  exact ⟨s, last, hs, hlast, hrest, (Nat.le_add_right _ _).trans hlength, hdelivered.1.1⟩

end MullvadAppTests.TestRpc
