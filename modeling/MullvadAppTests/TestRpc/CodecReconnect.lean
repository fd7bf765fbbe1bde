import MullvadAppTests.TestRpc.CodecConnect

/-!
When garbage in front of the handshake is ignored, and when a client that was
reset finds its peer again. Both results are exact: they say for which garbage,
and for which codec state at the reset, the handshake and every later frame
come out.
-/

namespace MullvadAppTests.TestRpc

open Lib.LengthDelimited Lib.Incremental

/-- The concatenated encodings of the frames. -/
def encodeAll : List Frame → Except IoError Bytes
  | [] => .ok []
  | f :: rest => do
      let bytes ← encode f
      let tail ← encodeAll rest
      return bytes ++ tail

theorem encodeAll_of_fits (frames : List Frame) (hfits : ∀ f ∈ frames, f.Fits) :
    encodeAll frames = .ok (frames.flatMap Frame.wire) := by
  induction frames with
  | nil => rfl
  | cons f rest ih =>
      have hrest := ih (fun g hg => hfits g (by simp [hg]))
      simp only [encodeAll, encode_of_fits f (hfits f (by simp)), hrest]
      rfl

theorem noisy_wires (frames : List Frame) (hfits : ∀ f ∈ frames, f.Fits) :
    Noisy frames (frames.flatMap Frame.wire) := by
  induction frames with
  | nil => exact Noisy.done
  | cons f rest ih =>
      exact Noisy.frame f (hfits f (by simp)) (ih (fun g hg => hfits g (by simp [hg])))

/-- Bytes that are nothing but `^x` pairs and one more `^`. -/
def LoneCaret (src : Bytes) : Prop := ∃ xs, src = noisePairs xs ++ [caret]

theorem loneCaret_iff (src : Bytes) : dropPairs src = [caret] ↔ LoneCaret src := by
  constructor
  · intro h
    obtain ⟨xs, hsrc⟩ := dropPairs_spec src
    rw [h] at hsrc
    exact ⟨xs, hsrc⟩
  · rintro ⟨xs, rfl⟩
    induction xs with
    | nil => rfl
    | cons x xs ih => exact ih

theorem scan_of_garbage {garbage : Bytes} (tail : Bytes)
    (h : ¬ mullvadSignature <:+: garbage) :
    ∃ lone, (lone = true ↔ LoneCaret garbage) ∧
      Scan lone (garbage ++ (Frame.handshake.wire ++ tail)) tail := by
  by_cases hlone : dropPairs garbage = [caret]
  · refine ⟨true, ?_, Or.inl ⟨garbage, rfl, h, ?_⟩⟩
    · simpa using (loneCaret_iff garbage).mp hlone
    · simpa using hlone
  · refine ⟨false, ?_, Or.inl ⟨garbage, rfl, h, ?_⟩⟩
    · simpa using fun hl => hlone ((loneCaret_iff garbage).mpr hl)
    · simpa using hlone

/-! ### The handshake without its first byte -/

/-- Without its first byte the handshake begins with a header for 2304 bytes,
and the frame that follows it begins with the `M` of the signature. -/
theorem decode_lone_view (left : Bytes) :
    Lib.LengthDelimited.decode maxFrameLength .head (handshakeView true ++ left) =
      decodeData 2304 (mullvadSignature ++ left) := by
  have hview : handshakeView true ++ left = 0 :: 0 :: 9 :: 0 :: (mullvadSignature ++ left) := rfl
  have hlength : getUint32 0 0 9 0 = 2304 := rfl
  apply decode_of_decodeHead
  rw [hview, decodeHead, hlength, if_neg (by decide)]

theorem decodeData_signature (src future tail : Bytes)
    (h : src ++ future = mullvadSignature ++ tail) :
    (∃ e, liftFrame (decodeData 2304 src).1 = .error e) ∨
    decodeData 2304 src = (.ok none, .data 2304, src) := by
  by_cases hshort : src.length < 2304
  · exact Or.inr (decodeData_short 2304 src hshort)
  · left
    cases src with
    | nil => simp at hshort
    | cons a rest =>
        have ha : a = 0x4D := by
          rw [mullvadSignature, List.cons_append, List.cons_append] at h
          exact (List.cons.inj h).1
        subst ha
        refine ⟨⟨.invalidInput, "invalid frame type"⟩, ?_⟩
        rw [decodeData, if_neg hshort]
        rfl

/-- A codec that waits for a header and loses the first byte of the handshake
never returns a frame. -/
def jammed : Mute decode where
  holds codec bytes :=
    (codec = ⟨.head, false⟩ ∧ ∃ tail, Scan true bytes tail) ∨
    (codec = ⟨.data 2304, true⟩ ∧ ∃ tail, bytes = mullvadSignature ++ tail)
  step := by
    rintro codec src future (⟨rfl, tail, hscan⟩ | ⟨rfl, tail, hbytes⟩)
    · rcases skipNoise_scan src future tail hscan with
        ⟨left, hskip, _, hleft⟩ | ⟨left, hskip, _, _⟩
      · exact Or.inr ⟨⟨.head, false⟩, left, decode_unconnected_none hskip,
          Or.inl ⟨rfl, tail, hleft⟩⟩
      · have hcall := decode_unconnected_found .head hskip
        rw [decode_lone_view] at hcall
        rcases decodeData_signature (mullvadSignature ++ left) future (left ++ future)
          (List.append_assoc _ _ _) with ⟨e, herror⟩ | hnone
        · rw [herror] at hcall
          exact Or.inl ⟨e, _, _, hcall⟩
        · rw [hnone] at hcall
          exact Or.inr ⟨_, _, hcall, Or.inr ⟨rfl, left ++ future, List.append_assoc _ _ _⟩⟩
    · have hclean : dropPairs src = src := by
        apply dropPairs_of_clean
        cases src with
        | nil => exact Or.inl (by simp)
        | cons a rest =>
            rw [mullvadSignature, List.cons_append, List.cons_append] at hbytes
            exact Or.inr (by simp [(List.cons.inj hbytes).1, caret])
      have hcall := decode_connected (.data 2304) src
      rw [hclean] at hcall
      simp only [Lib.LengthDelimited.decode] at hcall
      rcases decodeData_signature src future tail hbytes with ⟨e, herror⟩ | hnone
      · rw [herror] at hcall
        exact Or.inl ⟨e, _, _, hcall⟩
      · rw [hnone] at hcall
        exact Or.inr ⟨_, _, hcall, Or.inr ⟨rfl, tail, hbytes⟩⟩

/-- A fresh unconnected codec reads garbage, a handshake and any frames, in any
chunks. It returns the handshake and the frames without an error exactly when
the garbage is not a sequence of `^x` pairs with a single `^` behind it. -/
theorem garbage_ignored_iff (garbage : Bytes) (frames : List Frame)
    (hgarbage : ¬ mullvadSignature <:+: garbage) (hfits : ∀ f ∈ frames, f.Fits) :
    ∃ bytes, encodeAll (.handshake :: frames) = .ok bytes ∧
      ∀ chunks : List Bytes, chunks.flatten = garbage ++ bytes →
        ((feedAll decode (.new false) [] chunks).items = .handshake :: frames ∧
          (feedAll decode (.new false) [] chunks).error = none ↔
        ¬ LoneCaret garbage) := by
  have hall : ∀ f ∈ Frame.handshake :: frames, f.Fits := by
    intro f hf
    rcases List.mem_cons.mp hf with rfl | hf
    · decide
    · exact hfits f hf
  refine ⟨_, encodeAll_of_fits _ hall, ?_⟩
  intro chunks hchunks
  rw [List.flatMap_cons] at hchunks
  obtain ⟨lone, hlone, hscan⟩ := scan_of_garbage (frames.flatMap Frame.wire) hgarbage
  rw [← hchunks] at hscan
  cases lone with
  | false =>
      have hfeed := feedAll_session .head [] chunks false frames _ rfl rfl hscan
        (noisy_wires frames hfits)
      rw [MultiplexCodec.new, hfeed]
      simpa using hlone
  | true =>
      have hmute := jammed.feedAll_items chunks ⟨.head, false⟩ []
        (Or.inl ⟨rfl, _, hscan⟩)
      rw [MultiplexCodec.new, hmute]
      simpa using hlone

/-- A greeting and a newline before the handshake are ignored. -/
theorem greeting_ignored : ∃ bytes, encodeAll [.handshake, .daemonRpc [1]] = .ok bytes ∧
    ∀ chunks : List Bytes, chunks.flatten = [0x68, 0x69, 0x0A] ++ bytes →
      ((feedAll decode (.new false) [] chunks).items = [.handshake, .daemonRpc [1]] ∧
        (feedAll decode (.new false) [] chunks).error = none ↔
      ¬ LoneCaret [0x68, 0x69, 0x0A]) :=
  garbage_ignored_iff [0x68, 0x69, 0x0A] [.daemonRpc [1]] (by decide) (by decide)

/-- A single `^` in front of the handshake hides the handshake. -/
theorem lone_caret_hides_handshake :
    ¬ mullvadSignature <:+: [caret] ∧
    encodeAll [.handshake] = .ok Frame.handshake.wire ∧
    (feedAll decode (.new false) [] [[caret] ++ Frame.handshake.wire]).items = [] := by
  refine ⟨by decide, by decide, by decide⟩

/-! ### Reconnecting after a reset -/

theorem length_skipNoise_le (hasConnected : Bool) (src : Bytes) :
    (skipNoise hasConnected src).2.length ≤ src.length := by
  have hle := length_dropPairs_le src
  cases hasConnected with
  | true => rwa [skipNoise_connected]
  | false =>
      rw [skipNoise_unconnected]
      split
      · simp only [List.length_drop]
        omega
      · exact hle

/-- The reader's loop ends: a frame comes out only for buffered bytes, since an
empty frame body is an error. -/
theorem decode_consumes : Consumes decode := by
  rintro ⟨state, hasConnected⟩ src f next left hcall
  have hskip := length_skipNoise_le hasConnected src
  simp only [decode] at hcall
  rcases hnoise : skipNoise hasConnected src with ⟨connected, rest⟩
  rw [hnoise] at hcall hskip
  cases connected with
  | false => simp at hcall
  | true =>
      simp only [Bool.not_true, Bool.false_eq_true, if_false] at hcall
      rcases hinner : Lib.LengthDelimited.decode maxFrameLength state rest with ⟨result, st, out⟩
      rw [hinner] at hcall
      simp only [Prod.mk.injEq] at hcall
      obtain ⟨hlift, _, rfl⟩ := hcall
      rcases result with e | body | body
      · cases hlift
      · cases hlift
      · have hlength := decode_length hinner
        cases body with
        | nil => cases hlift
        | cons b more =>
            simp only [List.length_cons] at hlength hskip
            omega

/-- The part of `reset_connected_state` that the codec sees: the shared flag
is cleared, the inner decoder and the read buffer stay as they are. -/
def MultiplexCodec.resetConnectedState (codec : MultiplexCodec) : MultiplexCodec :=
  {codec with hasConnected := false}

/-- After the reset, a handshake and any frames come out exactly, in any
chunks and without an error. -/
def Reconnects (codec : MultiplexCodec) (buffer : Bytes) : Prop :=
  ∀ frames : List Frame, (∀ f ∈ frames, f.Fits) →
    ∀ bytes, encodeAll (.handshake :: frames) = .ok bytes →
      ∀ chunks : List Bytes, chunks.flatten = bytes →
        (feedAll decode codec.resetConnectedState buffer chunks).items = .handshake :: frames ∧
        (feedAll decode codec.resetConnectedState buffer chunks).error = none

/-- The inner decoder waits for a header and the buffer is not cut down to a
lone `^`, or it happens to wait for just as many bytes as the handshake has. -/
def ResetSafe (codec : MultiplexCodec) (buffer : Bytes) : Prop :=
  match codec.lenDelimCodec with
  | .head => ¬ LoneCaret buffer
  | .data n => (n = 13 ∧ ¬ LoneCaret buffer) ∨ (n = 12 ∧ LoneCaret buffer)

theorem resetSafe_iff_inStep {lone : Bool} {codec : MultiplexCodec} {buffer : Bytes}
    (hlone : lone = true ↔ LoneCaret buffer) :
    ResetSafe codec buffer ↔ InStep lone codec.lenDelimCodec := by
  obtain ⟨state, hasConnected⟩ := codec
  have hwhole : (handshakeView false).length = 13 := rfl
  have hcut : (handshakeView true).length = 12 := rfl
  cases state <;> cases lone <;> simp_all [ResetSafe, InStep]

theorem decode_whole_stream {lone : Bool} {src tail : Bytes} (state : DecodeState)
    (h : Scan lone src tail) :
    decode ⟨state, false⟩ src =
      (liftFrame (Lib.LengthDelimited.decode maxFrameLength state (handshakeView lone ++ tail)).1,
        ⟨(Lib.LengthDelimited.decode maxFrameLength state (handshakeView lone ++ tail)).2.1, true⟩,
        (Lib.LengthDelimited.decode maxFrameLength state (handshakeView lone ++ tail)).2.2) := by
  have hnil : Scan lone (src ++ []) tail := by rwa [List.append_nil]
  rcases skipNoise_scan src [] tail hnil with ⟨left, _, hnone, hleft⟩ | ⟨left, hskip, htail, _⟩
  · rw [List.append_nil] at hleft
    exact absurd hnone hleft.findSignature_ne_none
  · rw [List.append_nil] at htail
    rw [decode_unconnected_found state hskip, htail]

/-- Fewer outstanding bytes than the handshake has: the rest of the handshake
is read as a header, and a frame sent after it does not come out. -/
theorem short_body_loses_frame (lone : Bool) (n : Nat) (hn : n < (handshakeView lone).length)
    (src : Bytes) (h : Scan lone src (Frame.daemonRpc []).wire) :
    (drain decode ⟨.data n, false⟩ src).items ≠ [.handshake, .daemonRpc []] := by
  have hcall := decode_whole_stream (.data n) h
  have hlong : ¬ (handshakeView lone ++ (Frame.daemonRpc []).wire).length < n := by
    rw [List.length_append]
    omega
  simp only [Lib.LengthDelimited.decode, decodeData, if_neg hlong] at hcall
  cases n with
  | zero =>
      simp only [drain, drainFuel, hcall]
      exact List.cons_ne_nil _ _ ∘ Eq.symm
  | succ n =>
      have hitem : decode ⟨.data (n + 1), false⟩ src = (.ok (some .handshake), ⟨.head, true⟩,
          (handshakeView lone ++ (Frame.daemonRpc []).wire).drop (n + 1)) := by
        rw [hcall]
        cases lone <;> rfl
      rw [drain_of_item decode_consumes hitem]
      simp only [ne_eq, List.cons.injEq, true_and]
      clear hcall hitem hlong h
      cases lone
      · have hbound : n < 12 := Nat.lt_of_succ_lt_succ hn
        interval_cases n <;> decide
      · have hbound : n < 11 := Nat.lt_of_succ_lt_succ hn
        interval_cases n <;> decide

theorem not_reconnects {lone : Bool} {codec : MultiplexCodec} {buffer : Bytes}
    (hbuffer : ¬ mullvadSignature <:+: buffer) (hlone : lone = true ↔ LoneCaret buffer)
    (hstep : ¬ InStep lone codec.lenDelimCodec) : ¬ Reconnects codec buffer := by
  obtain ⟨state, hasConnected⟩ := codec
  intro hreconnects
  have hscan (tail : Bytes) : Scan lone (buffer ++ (Frame.handshake.wire ++ tail)) tail := by
    obtain ⟨other, hother, hscan⟩ := scan_of_garbage tail hbuffer
    have hsame : other = lone := by
      rw [Bool.eq_iff_iff, hother, hlone]
    rwa [hsame] at hscan
  have hempty := hreconnects [] (by simp) _ (encodeAll_of_fits [.handshake] (by decide))
    [Frame.handshake.wire] rfl
  cases state with
  | head =>
      have htrue : lone = true := by simpa [InStep] using hstep
      subst htrue
      have hmute := jammed.feedAll_items [Frame.handshake.wire] ⟨.head, false⟩ buffer
        (Or.inl ⟨rfl, [], by simpa using hscan []⟩)
      rw [MultiplexCodec.resetConnectedState, hmute] at hempty
      cases hempty.1
  | data n =>
      rcases Nat.lt_trichotomy n (handshakeView lone).length with hlt | heq | hgt
      · have hpair := hreconnects [.daemonRpc []] (by decide) _
          (encodeAll_of_fits [.handshake, .daemonRpc []] (by decide))
          [Frame.handshake.wire ++ (Frame.daemonRpc []).wire] (by simp)
        rw [items_feedAll_single] at hpair
        exact short_body_loses_frame lone n hlt _ (hscan _) hpair.1
      · exact hstep heq
      · -- the inner decoder takes the handshake for the middle of a longer frame
        rw [items_feedAll_single] at hempty
        have hcall := decode_whole_stream (.data n) (hscan [])
        rw [List.append_nil, List.append_nil] at hcall
        simp only [Lib.LengthDelimited.decode, decodeData_short n _ hgt, liftFrame] at hcall
        simp only [MultiplexCodec.resetConnectedState, drain, drainFuel, hcall] at hempty
        cases hempty.1

/-- A client codec has read any history and is reset, with no signature left
in its buffer. It reconnects, whatever frames follow the handshake and however
they are cut, exactly when the state at the reset is safe. The history may have
begun with the codec connected or not. -/
theorem reconnects_iff (connected : Bool) (history : List Bytes)
    (hbuffer : ¬ mullvadSignature <:+: (feedAll decode (.new connected) [] history).buffer) :
    Reconnects (feedAll decode (.new connected) [] history).state
        (feedAll decode (.new connected) [] history).buffer ↔
      ResetSafe (feedAll decode (.new connected) [] history).state
        (feedAll decode (.new connected) [] history).buffer := by
  generalize feedAll decode (.new connected) [] history = out at *
  obtain ⟨lone, hlone, _⟩ := scan_of_garbage [] hbuffer
  rw [resetSafe_iff_inStep hlone]
  constructor
  · intro hreconnects
    by_contra hstep
    exact not_reconnects hbuffer hlone hstep hreconnects
  · intro hstep frames hfits bytes hbytes chunks hchunks
    have hall : ∀ f ∈ Frame.handshake :: frames, f.Fits := by
      intro f hf
      rcases List.mem_cons.mp hf with rfl | hf
      · decide
      · exact hfits f hf
    rw [encodeAll_of_fits _ hall, Except.ok.injEq, List.flatMap_cons] at hbytes
    obtain ⟨other, hother, hscan⟩ := scan_of_garbage (frames.flatMap Frame.wire) hbuffer
    have hsame : other = lone := by
      rw [Bool.eq_iff_iff, hother, hlone]
    subst hsame
    rw [hbytes, ← hchunks] at hscan
    rw [MultiplexCodec.resetConnectedState, feedAll_session out.state.lenDelimCodec out.buffer
      chunks other frames _ ((findSignature_eq_none_iff _).mpr hbuffer) hstep hscan
      (noisy_wires frames hfits)]
    exact ⟨rfl, rfl⟩

/-- A client that is reset between two frames reconnects. -/
theorem reconnects_between_frames :
    Reconnects (feedAll decode (.new true) [] [[0, 0, 0, 2, 1, 0x41]]).state
      (feedAll decode (.new true) [] [[0, 0, 0, 2, 1, 0x41]]).buffer :=
  (reconnects_iff true [[0, 0, 0, 2, 1, 0x41]] (by decide)).mpr (by
    show ¬ LoneCaret []
    rintro ⟨xs, hxs⟩
    exact absurd hxs (by simp))

/-- The reset falls into a frame of 20 bytes of which two have arrived. The
handshake and a runner frame after it, 20 bytes together, come out as a single
handshake: the runner frame is lost. -/
theorem reset_inside_frame_loses_frame :
    (feedAll decode (.new true) [] [[0, 0, 0, 20, 1, 0x41]]).error = none ∧
    (feedAll decode (.new true) [] [[0, 0, 0, 20, 1, 0x41]]).state.hasConnected = true ∧
    ¬ mullvadSignature <:+: (feedAll decode (.new true) [] [[0, 0, 0, 20, 1, 0x41]]).buffer ∧
    ¬ Reconnects (feedAll decode (.new true) [] [[0, 0, 0, 20, 1, 0x41]]).state
      (feedAll decode (.new true) [] [[0, 0, 0, 20, 1, 0x41]]).buffer := by
  refine ⟨by decide, by decide, by decide, ?_⟩
  intro hreconnects
  have hframes := hreconnects [.testRunner [0x7B, 0x7D]] (by decide) _
    (encodeAll_of_fits [.handshake, .testRunner [0x7B, 0x7D]] (by decide))
    [Frame.handshake.wire, (Frame.testRunner [0x7B, 0x7D]).wire] rfl
  exact absurd hframes.1 (by decide)

end MullvadAppTests.TestRpc
