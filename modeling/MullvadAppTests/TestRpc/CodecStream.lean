import MullvadAppTests.TestRpc.Codec

/-!
The connected codec reads back what the encoder wrote, for every chunking of
the stream and with `^x` pairs anywhere between the frames. The point is that
`skip_noise` runs before every call, also after a header has been consumed:
neither a header nor a frame body may begin with `^`.
-/

namespace MullvadAppTests.TestRpc

open Lib.LengthDelimited Lib.Incremental

/-- What the loop of `skip_noise` leaves of the buffer before it looks for a
signature: leading two-byte groups that start with `^` are gone. -/
def dropPairs : Bytes → Bytes
  | a :: b :: rest => if a = caret then dropPairs rest else a :: b :: rest
  | src => src

/-- Induction along the pairs that `skip_noise` drops. -/
@[elab_as_elim]
theorem pairs_induction {motive : Bytes → Prop} (src : Bytes)
    (nil : motive []) (single : ∀ a, motive [a])
    (pair : ∀ x rest, motive rest → motive (caret :: x :: rest))
    (other : ∀ a b rest, a ≠ caret → motive (a :: b :: rest)) : motive src := by
  induction src using dropPairs.induct with
  | case1 x rest ih => exact pair x rest ih
  | case2 a b rest ha => exact other a b rest ha
  | case3 src hsrc =>
      rcases src with _ | ⟨a, _ | ⟨b, rest⟩⟩
      · exact nil
      · exact single a
      · exact absurd rfl (hsrc a b rest)

/-- No further pair can be dropped. -/
def Clean (src : Bytes) : Prop := src.length < 2 ∨ src.head? ≠ some caret

@[simp] theorem dropPairs_pair (x : UInt8) (rest : Bytes) :
    dropPairs (caret :: x :: rest) = dropPairs rest := by
  simp [dropPairs]

theorem dropPairs_of_clean {src : Bytes} (h : Clean src) : dropPairs src = src := by
  induction src using pairs_induction with
  | nil => rfl
  | single a => rfl
  | pair x rest _ => simp [Clean] at h
  | other a b rest ha => simp [dropPairs, ha]

theorem dropPairs_clean (src : Bytes) : Clean (dropPairs src) := by
  induction src using pairs_induction with
  | nil => exact Or.inl (by simp [dropPairs])
  | single a => exact Or.inl (by simp [dropPairs])
  | pair x rest ih => simpa using ih
  | other a b rest ha => exact Or.inr (by simp [dropPairs, ha])

theorem length_dropPairs_le (src : Bytes) : (dropPairs src).length ≤ src.length := by
  induction src using pairs_induction with
  | nil => exact Nat.le_refl _
  | single a => exact Nat.le_refl _
  | pair x rest ih =>
      simp only [dropPairs_pair, List.length_cons]
      omega
  | other a b rest ha => simp [dropPairs, ha]

/-- Dropping pairs early does not change what is dropped in the end. -/
theorem dropPairs_append (src more : Bytes) :
    dropPairs (dropPairs src ++ more) = dropPairs (src ++ more) := by
  induction src using pairs_induction with
  | nil => rfl
  | single a => rfl
  | pair x rest ih => simpa using ih
  | other a b rest ha => simp only [dropPairs, ha, if_false]

theorem skipNoise_connected (src : Bytes) :
    skipNoise true src = (true, dropPairs src) := by
  induction src using pairs_induction with
  | nil => rfl
  | single a => rfl
  | pair x rest ih => simpa [skipNoise] using ih
  | other a b rest ha => simp [skipNoise, dropPairs, ha]

theorem decode_connected (state : DecodeState) (src : Bytes) :
    decode ⟨state, true⟩ src =
      (liftFrame (Lib.LengthDelimited.decode maxFrameLength state (dropPairs src)).1,
        ⟨(Lib.LengthDelimited.decode maxFrameLength state (dropPairs src)).2.1, true⟩,
        (Lib.LengthDelimited.decode maxFrameLength state (dropPairs src)).2.2) := by
  simp only [decode, skipNoise_connected, Bool.not_true, Bool.false_eq_true, if_false]

/-- A frame that is complete and alone in the buffer. -/
theorem decode_wire (f : Frame) (hf : f.Fits) :
    decode ⟨.head, true⟩ f.wire = (.ok (some f), ⟨.head, true⟩, []) := by
  obtain ⟨rest, hhead⟩ := f.wire_head hf
  have hclean : Clean f.wire := by
    right
    rw [hhead]
    simp [caret]
  have hlimit : f.body.length ≤ maxFrameLength := by
    unfold Frame.Fits at hf
    simp only [Frame.length_body, maxFrameLength] at hf ⊢
    omega
  have hbody : decodeData f.body.length f.body = (.ok (some f.body), .head, []) := by
    simpa using decodeData_append f.body []
  have hinner : Lib.LengthDelimited.decode maxFrameLength .head f.wire =
      (.ok (some f.body), .head, []) := by
    rw [Frame.wire, decode_head_putUint32 _ _ _ hlimit (by decide), hbody]
  rw [decode_connected, dropPairs_of_clean hclean, hinner]
  simp [liftFrame, decodeFrame_body, Except.map]

/-- The bytes of the frames in order, with any number of `^x` pairs before,
between and after them. -/
inductive Noisy : List Frame → Bytes → Prop
  | done : Noisy [] []
  | noise {frames : List Frame} {bytes : Bytes} (x : UInt8) :
      Noisy frames bytes → Noisy frames (caret :: x :: bytes)
  | frame {frames : List Frame} {bytes : Bytes} (f : Frame) :
      f.Fits → Noisy frames bytes → Noisy (f :: frames) (f.wire ++ bytes)

theorem Noisy.of_caret {frames : List Frame} {x : UInt8} {bytes : Bytes}
    (h : Noisy frames (caret :: x :: bytes)) : Noisy frames bytes := by
  generalize hbytes : caret :: x :: bytes = whole at h
  cases h with
  | done => cases hbytes
  | noise y htail =>
      simp only [List.cons.injEq] at hbytes
      rw [hbytes.2.2]
      exact htail
  | frame f hf htail =>
      obtain ⟨rest, hwire⟩ := f.wire_head hf
      rw [hwire, List.cons_append, List.cons.injEq] at hbytes
      exact absurd hbytes.1 (by decide)

theorem Noisy.of_ne_caret {frames : List Frame} {a : UInt8} {bytes : Bytes}
    (ha : a ≠ caret) (h : Noisy frames (a :: bytes)) :
    ∃ f rest tail, frames = f :: rest ∧ f.Fits ∧ a :: bytes = f.wire ++ tail ∧
      Noisy rest tail := by
  generalize hbytes : a :: bytes = whole at h
  cases h with
  | done => cases hbytes
  | noise y htail =>
      simp only [List.cons.injEq] at hbytes
      exact absurd hbytes.1 ha
  | frame f hf htail => exact ⟨f, _, _, rfl, hf, rfl, htail⟩

theorem Noisy.dropPairs_append {frames : List Frame} (buffer future : Bytes)
    (h : Noisy frames (buffer ++ future)) :
    Noisy frames (dropPairs buffer ++ future) := by
  induction buffer using pairs_induction with
  | nil => exact h
  | single a => exact h
  | pair x rest ih =>
      rw [dropPairs_pair]
      exact ih h.of_caret
  | other a b rest ha => simpa [dropPairs, ha] using h

/-- A settled reader has used up every pair it was given. -/
theorem Noisy.eq_nil_of_clean {bytes : Bytes} (h : Noisy [] bytes) (hclean : Clean bytes) :
    bytes = [] := by
  cases h with
  | done => rfl
  | noise x htail =>
      rcases hclean with hlength | hhead
      · simp only [List.length_cons] at hlength
        omega
      · simp at hhead

/-- A list at least as long as the first part of a split contains that part. -/
theorem split_of_length_le {src future first tail : Bytes}
    (h : src ++ future = first ++ tail) (hlength : first.length ≤ src.length) :
    ∃ left, src = first ++ left ∧ left ++ future = tail := by
  rcases List.append_eq_append_iff.mp h with ⟨mid, hfirst, hfuture⟩ | ⟨mid, hsrc, htail⟩
  · have hsum := congrArg List.length hfirst
    rw [List.length_append] at hsum
    have hnil : mid = [] := List.eq_nil_of_length_eq_zero (by omega)
    subst hnil
    exact ⟨[], by simpa using hfirst.symm, by simpa using hfuture⟩
  · exact ⟨mid, hsrc, htail.symm⟩

/-- What the connected codec, the buffered bytes and the bytes still to come
stand for. After a header only the rest of that frame may be pending. -/
def Pending (codec : MultiplexCodec) (bytes : Bytes) (frames : List Frame) : Prop :=
  codec.hasConnected = true ∧
    match codec.lenDelimCodec with
    | .head => Noisy frames bytes
    | .data n => ∃ f rest tail, frames = f :: rest ∧ f.Fits ∧ n = f.body.length ∧
        bytes = f.body ++ tail ∧ Noisy rest tail

/-- A buffered part of a frame body is not touched by `skip_noise`. -/
theorem clean_of_body (f : Frame) (src future tail : Bytes)
    (h : src ++ future = f.body ++ tail) : Clean src := by
  cases src with
  | nil => exact Or.inl (by simp)
  | cons a rest =>
      obtain ⟨more, hbody, hne⟩ := f.body_head
      rw [hbody, List.cons_append, List.cons_append, List.cons.injEq] at h
      exact Or.inr (by simpa [h.1] using hne)

/-- Behind a header: the frame comes out exactly when its last byte is there. -/
theorem decodeData_body (f : Frame) (src future tail : Bytes)
    (h : src ++ future = f.body ++ tail) :
    (∃ left, src = f.body ++ left ∧ left ++ future = tail ∧
      decodeData f.body.length src = (.ok (some f.body), .head, left)) ∨
    (src.length < f.body.length ∧
      decodeData f.body.length src = (.ok none, .data f.body.length, src)) := by
  by_cases hshort : src.length < f.body.length
  · exact Or.inr ⟨hshort, decodeData_short _ _ hshort⟩
  · obtain ⟨left, hsrc, htail⟩ := split_of_length_le h (by omega)
    refine Or.inl ⟨left, hsrc, htail, ?_⟩
    rw [hsrc]
    exact decodeData_append f.body left

/-- What a call that asked for more leaves behind: less than a header with no
pair to drop, or less than the frame body. -/
def Starved (codec : MultiplexCodec) (src : Bytes) : Prop :=
  match codec.lenDelimCodec with
  | .head => src.length < 4 ∧ Clean src
  | .data n => src.length < n

/-- Shape of one call of the connected codec: either the first frame comes out
and the rest stands for the remaining frames, or nothing changes in what is
pending. -/
def CallOk (codec : MultiplexCodec) (src future : Bytes) (frames : List Frame) : Prop :=
  (∃ f rest next left, decode codec src = (.ok (some f), next, left) ∧
    left.length < src.length ∧ frames = f :: rest ∧ Pending next (left ++ future) rest) ∨
  (∃ next left, decode codec src = (.ok none, next, left) ∧
    Starved next left ∧ Pending next (left ++ future) frames)

/-- The call once the inner decoder works on a frame body. `src` is what the
codec was called with, `body` what is left of it behind the header. -/
theorem callOk_of_body (codec : MultiplexCodec) (src body future tail : Bytes)
    (f : Frame) (rest : List Frame) (hf : f.Fits)
    (hcall : decode codec src =
      (liftFrame (decodeData f.body.length body).1,
        ⟨(decodeData f.body.length body).2.1, true⟩,
        (decodeData f.body.length body).2.2))
    (hlength : body.length ≤ src.length)
    (hbytes : body ++ future = f.body ++ tail) (hrest : Noisy rest tail) :
    CallOk codec src future (f :: rest) := by
  rcases decodeData_body f body future tail hbytes with
    ⟨left, hbody, htail, hdata⟩ | ⟨hshort, hdata⟩
  · refine Or.inl ⟨f, rest, ⟨.head, true⟩, left, ?_, ?_, rfl, rfl, ?_⟩
    · simp only [hcall, hdata, liftFrame, decodeFrame_body]
      rfl
    · rw [hbody, List.length_append, Frame.length_body] at hlength
      omega
    · rw [htail]
      exact hrest
  · refine Or.inr ⟨⟨.data f.body.length, true⟩, body, ?_, hshort, rfl, ?_⟩
    · simp only [hcall, hdata, liftFrame]
    · exact ⟨f, rest, tail, rfl, hf, rfl, hbytes, hrest⟩

theorem callOk_head (src future : Bytes) (frames : List Frame)
    (h : Noisy frames (src ++ future)) : CallOk ⟨.head, true⟩ src future frames := by
  have hclean := dropPairs_clean src
  have hnoisy := h.dropPairs_append
  have hcall := decode_connected .head src
  by_cases hshort : (dropPairs src).length < 4
  · have hdecode := decode_head_short maxFrameLength (dropPairs src) hshort
    refine Or.inr ⟨⟨.head, true⟩, dropPairs src, ?_, ⟨hshort, hclean⟩, rfl, hnoisy⟩
    simp only [hcall, hdecode, liftFrame]
  · obtain ⟨a, more, hsrc⟩ : ∃ a more, dropPairs src = a :: more := by
      cases hcases : dropPairs src with
      | nil => simp [hcases] at hshort
      | cons a more => exact ⟨a, more, rfl⟩
    have ha : a ≠ caret := by
      rcases hclean with hlt | hhead
      · omega
      · simpa [hsrc] using hhead
    rw [hsrc, List.cons_append] at hnoisy
    obtain ⟨f, rest, tail, hframes, hf, hwire, hrest⟩ := hnoisy.of_ne_caret ha
    rw [← List.cons_append, ← hsrc] at hwire
    -- the four header bytes are buffered, so the inner decoder consumes them
    obtain ⟨body, hbody, hjoin⟩ : ∃ body, dropPairs src = putUint32 f.body.length ++ body ∧
        body ++ future = f.body ++ tail := by
      rw [Frame.wire, List.append_assoc] at hwire
      exact split_of_length_le hwire (by rw [length_putUint32]; omega)
    have hlimit : f.body.length ≤ maxFrameLength := by
      unfold Frame.Fits at hf
      simp only [Frame.length_body, maxFrameLength] at hf ⊢
      omega
    have hdecode := decode_head_putUint32 maxFrameLength f.body.length body hlimit (by decide)
    rw [hframes]
    refine callOk_of_body ⟨.head, true⟩ src body future tail f rest hf ?_ ?_ hjoin hrest
    · rw [hcall, hbody, hdecode]
    · have hle := length_dropPairs_le src
      rw [hbody, List.length_append] at hle
      omega

theorem callOk_data (f : Frame) (src future tail : Bytes) (rest : List Frame)
    (hf : f.Fits) (hbytes : src ++ future = f.body ++ tail) (hrest : Noisy rest tail) :
    CallOk ⟨.data f.body.length, true⟩ src future (f :: rest) := by
  have hclean := dropPairs_of_clean (clean_of_body f src future tail hbytes)
  refine callOk_of_body ⟨.data f.body.length, true⟩ src src future tail f rest hf ?_
    (Nat.le_refl _) hbytes hrest
  rw [decode_connected, hclean]
  rfl

/-- The connected codec as a residual: every call respects what is pending. -/
def connectedResidual : Residual decode where
  holds := Pending
  quiet := Starved
  step := by
    rintro ⟨state, hasConnected⟩ src future frames ⟨hconnected, hpending⟩
    simp only at hconnected
    subst hconnected
    cases state with
    | head => exact callOk_head src future frames hpending
    | data n =>
        obtain ⟨f, rest, tail, rfl, hf, rfl, hbytes, hrest⟩ := hpending
        exact callOk_data f src future tail rest hf hbytes hrest

/-- Once every byte has been read and the codec asks for more, nothing is
pending any more. -/
theorem pending_starved {codec : MultiplexCodec} {src : Bytes} {frames : List Frame}
    (hpending : Pending codec src frames) (hstarved : Starved codec src) :
    frames = [] ∧ codec = ⟨.head, true⟩ ∧ src = [] := by
  obtain ⟨state, hasConnected⟩ := codec
  obtain ⟨hconnected, hpending⟩ := hpending
  simp only at hconnected
  subst hconnected
  cases state with
  | head =>
      obtain ⟨hshort, hclean⟩ := hstarved
      cases frames with
      | nil => exact ⟨rfl, rfl, Noisy.eq_nil_of_clean hpending hclean⟩
      | cons f rest =>
          cases hpending with
          | noise x htail =>
              rcases hclean with hlt | hhead
              · simp only [List.length_cons] at hlt
                omega
              · simp at hhead
          | frame _ hf htail =>
              rw [List.length_append, Frame.length_wire] at hshort
              omega
  | data n =>
      obtain ⟨f, rest, tail, _, _, rfl, rfl, _⟩ := hpending
      simp only [Starved, List.length_append] at hstarved
      omega

/-- The noise pairs `^x` for the given second bytes. -/
def noisePairs (xs : List UInt8) : Bytes := xs.flatMap fun x => [caret, x]

theorem noisePairs_append (first second : List UInt8) :
    noisePairs (first ++ second) = noisePairs first ++ noisePairs second := by
  simp [noisePairs]

/-- What is dropped from the front of a buffer are noise pairs. -/
theorem dropPairs_spec (src : Bytes) : ∃ xs, src = noisePairs xs ++ dropPairs src := by
  induction src using pairs_induction with
  | nil => exact ⟨[], rfl⟩
  | single a => exact ⟨[], rfl⟩
  | pair x rest ih =>
      obtain ⟨xs, hrest⟩ := ih
      refine ⟨x :: xs, ?_⟩
      rw [dropPairs_pair, noisePairs, List.flatMap_cons, List.append_assoc, ← noisePairs, ← hrest]
      rfl
  | other a b rest ha => exact ⟨[], by simp [noisePairs, dropPairs, ha]⟩

/-- The line's bytes for frames that are each followed by noise pairs, with
more pairs in front. The encoder may refuse a frame. -/
def noisyStream (lead : List UInt8) :
    List (Frame × List UInt8) → Except IoError Bytes
  | [] => .ok (noisePairs lead)
  | (f, noise) :: rest => do
      let bytes ← encode f
      let tail ← noisyStream noise rest
      return noisePairs lead ++ (bytes ++ tail)

theorem Noisy.noisePairs_append {frames : List Frame} {bytes : Bytes}
    (xs : List UInt8) (h : Noisy frames bytes) :
    Noisy frames (noisePairs xs ++ bytes) := by
  induction xs with
  | nil => exact h
  | cons x xs ih => exact Noisy.noise x ih

theorem noisyStream_ok (lead : List UInt8) (frames : List (Frame × List UInt8))
    (hfits : ∀ f ∈ frames, f.1.Fits) :
    ∃ bytes, noisyStream lead frames = .ok bytes ∧
      Noisy (frames.map Prod.fst) bytes := by
  induction frames generalizing lead with
  | nil => exact ⟨noisePairs lead, rfl, by simpa using Noisy.done.noisePairs_append lead⟩
  | cons head rest ih =>
      obtain ⟨f, noise⟩ := head
      have hf : f.Fits := hfits (f, noise) (by simp)
      obtain ⟨tail, htail, hnoisy⟩ := ih noise (fun g hg => hfits g (by simp [hg]))
      refine ⟨noisePairs lead ++ (f.wire ++ tail), ?_, ?_⟩
      · simp only [noisyStream, encode_of_fits f hf, htail]
        rfl
      · exact (Noisy.frame f hf hnoisy).noisePairs_append lead

/-- The stream of any frames within the limit, with noise pairs anywhere
between them and cut into any chunks, decodes to exactly these frames. No call
fails, and in the end the codec waits for a header with an empty buffer. -/
theorem decode_noisy_stream (lead : List UInt8) (frames : List (Frame × List UInt8))
    (hfits : ∀ f ∈ frames, f.1.payload.length ≤ maxFrameLength - 1) :
    ∃ bytes, noisyStream lead frames = .ok bytes ∧
      ∀ chunks : List Bytes, chunks.flatten = bytes →
        feedAll decode (.new true) [] chunks =
          ⟨frames.map Prod.fst, none, .new true, []⟩ := by
  obtain ⟨bytes, hstream, hnoisy⟩ := noisyStream_ok lead frames hfits
  refine ⟨bytes, hstream, ?_⟩
  intro chunks hchunks
  have hpending : Pending (.new true) ([] ++ chunks.flatten) (frames.map Prod.fst) := by
    rw [List.nil_append, hchunks]
    exact ⟨rfl, hnoisy⟩
  obtain ⟨got, rest, next, left, hfeed, hitems, hstarved, hend⟩ :=
    connectedResidual.feedAll_eq chunks (.new true) [] (frames.map Prod.fst)
      ⟨by decide, Or.inl (by decide)⟩ hpending
  obtain ⟨rfl, rfl, rfl⟩ := pending_starved hend hstarved
  rw [hfeed, hitems, List.append_nil]
  rfl

/-- Noise in front of, between and behind two frames. -/
theorem decode_two_noisy_frames :
    ∃ bytes, noisyStream [0x40] [(.daemonRpc [0x5E], [0x5E, 0x40]), (.handshake, [0x40])] =
        .ok bytes ∧
      ∀ chunks : List Bytes, chunks.flatten = bytes →
        feedAll decode (.new true) [] chunks =
          ⟨[.daemonRpc [0x5E], .handshake], none, .new true, []⟩ :=
  decode_noisy_stream [0x40] [(.daemonRpc [0x5E], [0x5E, 0x40]), (.handshake, [0x40])] (by decide)

end MullvadAppTests.TestRpc
