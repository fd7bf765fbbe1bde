import MullvadAppTests.TestRpc.CodecStream

/-!
How the unconnected codec finds the first frame, and what the inner decoder
makes of it. `skip_noise` drops `^x` pairs from the front and then cuts the
buffer five bytes before the first signature. Garbage that is cut down to a
lone `^` costs the handshake its first header byte; the inner decoder state is
not part of the search at all, so a frame that was interrupted by a reset is
continued with the bytes of the handshake.
-/

namespace MullvadAppTests.TestRpc

open Lib.LengthDelimited Lib.Incremental

/-! ### The signature scan -/

theorem findSignature_bound {src : Bytes} {window : Nat}
    (h : findSignature src = some window) :
    window + mullvadSignature.length ≤ src.length := by
  induction src generalizing window with
  | nil => cases h
  | cons b rest ih =>
      simp only [findSignature] at h
      by_cases hhere : (b :: rest).take mullvadSignature.length = mullvadSignature
      · rw [if_pos hhere, Option.some.injEq] at h
        have hlength := congrArg List.length hhere
        rw [List.length_take] at hlength
        omega
      · rw [if_neg hhere] at h
        obtain ⟨inner, hinner, rfl⟩ := Option.map_eq_some_iff.mp h
        have hbound := ih hinner
        rw [List.length_cons]
        omega

/-- A signature that has been found stays the first one when more arrives. -/
theorem findSignature_append {src : Bytes} {window : Nat} (more : Bytes)
    (h : findSignature src = some window) :
    findSignature (src ++ more) = some window := by
  induction src generalizing window with
  | nil => cases h
  | cons b rest ih =>
      have hlength : mullvadSignature.length ≤ (b :: rest).length := by
        have hbound := findSignature_bound h
        omega
      have htake : ((b :: rest) ++ more).take mullvadSignature.length =
          (b :: rest).take mullvadSignature.length :=
        List.take_append_of_le_length hlength
      rw [List.cons_append] at htake ⊢
      simp only [findSignature, htake] at h ⊢
      by_cases hhere : (b :: rest).take mullvadSignature.length = mullvadSignature
      · rwa [if_pos hhere] at h ⊢
      · rw [if_neg hhere] at h ⊢
        obtain ⟨inner, hinner, rfl⟩ := Option.map_eq_some_iff.mp h
        rw [ih hinner]
        rfl

theorem findSignature_eq_none_iff (src : Bytes) :
    findSignature src = none ↔ ¬ mullvadSignature <:+: src := by
  induction src with
  | nil =>
      simp only [findSignature, true_iff]
      intro h
      exact absurd (List.eq_nil_of_infix_nil h) (by decide)
  | cons b rest ih =>
      by_cases hhere : (b :: rest).take mullvadSignature.length = mullvadSignature
      · have hinfix : mullvadSignature <:+: b :: rest :=
          hhere ▸ (List.take_prefix mullvadSignature.length (b :: rest)).isInfix
        simp only [findSignature, if_pos hhere, reduceCtorEq, false_iff, not_not]
        exact hinfix
      · have hstart : ¬ mullvadSignature <+: b :: rest := fun hpre =>
          hhere (List.prefix_iff_eq_take.mp hpre).symm
        simp only [findSignature, if_neg hhere, Option.map_eq_none_iff, ih,
          List.infix_cons_iff, hstart, false_or]

/-- The header and the type byte in front of the handshake's signature. -/
theorem handshake_wire :
    Frame.handshake.wire = [0, 0, 0, 9, 0] ++ mullvadSignature := by decide

/-- A window that reaches from the garbage into the header contains a zero
byte, so it is not the signature. -/
theorem take_ne_signature (garbage rest : Bytes)
    (h : ¬ mullvadSignature <:+: garbage) :
    (garbage ++ (0 :: rest)).take mullvadSignature.length ≠ mullvadSignature := by
  intro heq
  by_cases hlong : mullvadSignature.length ≤ garbage.length
  · rw [List.take_append_of_le_length hlong] at heq
    exact h (heq ▸ (List.take_prefix _ _).isInfix)
  · have hzero : (0 : UInt8) ∈ mullvadSignature := by
      rw [← heq]
      have hsplit : ∃ k, mullvadSignature.length - garbage.length = k + 1 :=
        ⟨mullvadSignature.length - garbage.length - 1, by omega⟩
      obtain ⟨k, hk⟩ := hsplit
      rw [List.take_append, hk, List.take_succ_cons]
      simp
    revert hzero
    decide

theorem findSignature_handshake (garbage tail : Bytes)
    (h : ¬ mullvadSignature <:+: garbage) :
    findSignature (garbage ++ (Frame.handshake.wire ++ tail)) = some (garbage.length + 5) := by
  induction garbage with
  | nil => rfl
  | cons g garbage ih =>
      have hrest : ¬ mullvadSignature <:+: garbage := fun hinner =>
        h (List.infix_cons_iff.mpr (Or.inr hinner))
      have hhere : ¬ (g :: (garbage ++ (Frame.handshake.wire ++ tail))).take
          mullvadSignature.length = mullvadSignature := by
        rw [handshake_wire, List.append_assoc]
        exact take_ne_signature (g :: garbage) ([0, 0, 9, 0] ++ (mullvadSignature ++ tail)) h
      rw [List.cons_append, findSignature, if_neg hhere, ih hrest, Option.map_some,
        List.length_cons]

/-! ### What the search leaves -/

theorem skipNoise_unconnected (src : Bytes) :
    skipNoise false src =
      match findSignature (dropPairs src) with
      | some window => (true, (dropPairs src).drop (window - 5))
      | none => (false, dropPairs src) := by
  induction src using pairs_induction with
  | nil => rfl
  | single a => simp [skipNoise, dropPairs, findSignature, mullvadSignature]
  | pair x rest ih => simpa [skipNoise] using ih
  | other a b rest ha =>
      have hoffset (window : Nat) :
          window - frameTypeSize - multiplexLenDelimitedHeaderSize = window - 5 := by
        simp [frameTypeSize, multiplexLenDelimitedHeaderSize, Nat.sub_sub]
      cases hfind : findSignature (a :: b :: rest) with
      | none => simp [skipNoise, dropPairs, ha, hfind]
      | some window => simp [skipNoise, dropPairs, ha, hfind, hoffset]

/-- The handshake as the inner decoder gets to see it: whole, or without its
first byte when that byte was dropped as the second half of a pair. -/
def handshakeView (lone : Bool) : Bytes :=
  if lone then Frame.handshake.wire.tail else Frame.handshake.wire

/-- What the unconnected codec has in front of it: garbage without a signature,
then the handshake, then `tail`. `lone` says that the garbage is cut down to a
single `^`; the second alternative is the moment after that pair is gone. -/
def Scan (lone : Bool) (bytes tail : Bytes) : Prop :=
  (∃ garbage, bytes = garbage ++ (Frame.handshake.wire ++ tail) ∧
    ¬ mullvadSignature <:+: garbage ∧ (dropPairs garbage = [caret] ↔ lone = true)) ∨
  (lone = true ∧ bytes = handshakeView true ++ tail)

theorem infix_of_tail_tail {a b : UInt8} {rest : Bytes}
    (h : ¬ mullvadSignature <:+: a :: b :: rest) : ¬ mullvadSignature <:+: rest := by
  intro hrest
  exact h (List.infix_cons_iff.mpr (Or.inr (List.infix_cons_iff.mpr (Or.inr hrest))))

/-- Dropping pairs from what has arrived keeps the shape of the stream. -/
theorem Scan.dropPairs_append {lone : Bool} (src future tail : Bytes)
    (h : Scan lone (src ++ future) tail) : Scan lone (dropPairs src ++ future) tail := by
  induction src using pairs_induction with
  | nil => exact h
  | single a => exact h
  | other a b rest ha => simpa [dropPairs, ha] using h
  | pair x rest ih =>
      rw [dropPairs_pair]
      apply ih
      rcases h with ⟨garbage, hbytes, hinfix, hlone⟩ | ⟨_, hbytes⟩
      · rcases garbage with _ | ⟨g, _ | ⟨g', garbage⟩⟩
        · rw [handshake_wire] at hbytes
          exact absurd (List.cons.inj hbytes).1 (by decide)
        · -- the pair takes the first header byte of the handshake with it
          rw [handshake_wire] at hbytes
          simp only [List.cons_append, List.nil_append, List.cons.injEq] at hbytes
          obtain ⟨rfl, rfl, hrest⟩ := hbytes
          refine Or.inr ⟨hlone.mp rfl, ?_⟩
          rw [hrest]
          rfl
        · simp only [List.cons_append, List.cons.injEq] at hbytes
          obtain ⟨rfl, rfl, hrest⟩ := hbytes
          rw [dropPairs_pair] at hlone
          exact Or.inl ⟨garbage, hrest, infix_of_tail_tail hinfix, hlone⟩
      · exact absurd (List.cons.inj hbytes).1 (by decide)

theorem head_of_dropPairs {src : Bytes} (h : dropPairs src = [caret]) :
    src.head? = some caret := by
  induction src using pairs_induction with
  | nil => cases h
  | single a => simpa [dropPairs] using h
  | pair x rest _ => rfl
  | other a b rest ha =>
      simp only [dropPairs, if_neg ha] at h
      exact absurd h (by simp)

/-- One run of `skip_noise` on any part of the stream that has arrived: it goes
on searching, or it stops in front of what is left of the handshake. -/
theorem skipNoise_scan {lone : Bool} (src future tail : Bytes)
    (h : Scan lone (src ++ future) tail) :
    (∃ left, skipNoise false src = (false, left) ∧ findSignature left = none ∧
      Scan lone (left ++ future) tail) ∨
    (∃ left, skipNoise false src = (true, handshakeView lone ++ left) ∧
      left ++ future = tail ∧ left.length < src.length) := by
  have hscan := h.dropPairs_append
  have hlength := length_dropPairs_le src
  rw [skipNoise_unconnected]
  cases hfind : findSignature (dropPairs src) with
  | none => exact Or.inl ⟨dropPairs src, rfl, hfind, hscan⟩
  | some window =>
      right
      have hall := findSignature_append future hfind
      have hbound := findSignature_bound hfind
      rcases hscan with ⟨garbage, hbytes, hinfix, hlone⟩ | ⟨rfl, hbytes⟩
      · rw [hbytes, findSignature_handshake garbage tail hinfix, Option.some.injEq] at hall
        rw [← List.append_assoc] at hbytes
        obtain ⟨left, hsrc, htail⟩ := split_of_length_le hbytes (by
          rw [List.length_append, Frame.length_wire]
          simp only [Frame.payload]
          omega)
        have hfalse : lone = false := by
          by_contra hne
          have hhead := head_of_dropPairs (hlone.mpr (by simpa using hne))
          have hclean := dropPairs_clean src
          rw [hsrc] at hclean
          cases garbage with
          | nil => cases hhead
          | cons g rest =>
              rcases hclean with hlt | hne
              · rw [handshake_wire] at hlt
                simp only [List.length_append, List.length_cons] at hlt
                omega
              · exact hne (by simpa using hhead)
        refine ⟨left, ?_, htail, ?_⟩
        · have hdrop : window - 5 = garbage.length := by omega
          simp only [hdrop, hsrc, hfalse, handshakeView, List.append_assoc, List.drop_left,
            Bool.false_eq_true, if_false]
        · rw [hsrc] at hlength
          simp only [List.length_append, Frame.length_wire] at hlength
          omega
      · have hfour : findSignature (handshakeView true ++ tail) = some 4 := rfl
        rw [hbytes, hfour, Option.some.injEq] at hall
        obtain ⟨left, hsrc, htail⟩ := split_of_length_le hbytes (by
          simp only [handshakeView, if_true, List.length_tail, Frame.length_wire, Frame.payload]
          omega)
        refine ⟨left, ?_, htail, ?_⟩
        · simp only [← hall, Nat.reduceSub, List.drop_zero, hsrc]
        · rw [hsrc] at hlength
          simp only [List.length_append, handshakeView, if_true, List.length_tail,
            Frame.length_wire] at hlength
          omega

/-! ### From the handshake on -/

/-- The inner decoder state in which the handshake, as it is found, comes out
as a frame: either it waits for a header and sees the whole handshake, or it
waits for a frame body of just the length of what it sees. -/
def InStep (lone : Bool) : DecodeState → Prop
  | .head => lone = false
  | .data n => n = (handshakeView lone).length

instance (lone : Bool) (state : DecodeState) : Decidable (InStep lone state) := by
  cases state <;> unfold InStep <;> infer_instance

theorem decode_handshakeView {lone : Bool} {state : DecodeState}
    (h : InStep lone state) (left : Bytes) :
    ∃ body, Lib.LengthDelimited.decode maxFrameLength state (handshakeView lone ++ left) =
      (.ok (some body), .head, left) ∧ decodeFrame body = .ok .handshake := by
  cases state with
  | head =>
      simp only [InStep] at h
      subst h
      refine ⟨Frame.handshake.body, ?_, rfl⟩
      simp only [handshakeView, Bool.false_eq_true, if_false, Frame.wire, List.append_assoc]
      rw [decode_head_putUint32 _ _ _ (by decide) (by decide)]
      exact decodeData_append _ _
  | data n =>
      simp only [InStep] at h
      subst h
      refine ⟨handshakeView lone, decodeData_append _ _, ?_⟩
      cases lone <;> rfl

/-- An unconnected codec whose stream leads to a handshake and then to the
frames, or a codec that is already connected. -/
def Session (codec : MultiplexCodec) (bytes : Bytes) (frames : List Frame) : Prop :=
  (codec.hasConnected = false ∧ ∃ lone rest tail, frames = .handshake :: rest ∧
    Scan lone bytes tail ∧ InStep lone codec.lenDelimCodec ∧ Noisy rest tail) ∨
  Pending codec bytes frames

def SessionQuiet (codec : MultiplexCodec) (src : Bytes) : Prop :=
  if codec.hasConnected then Starved codec src else findSignature src = none

theorem decode_unconnected_none {state : DecodeState} {src left : Bytes}
    (h : skipNoise false src = (false, left)) :
    decode ⟨state, false⟩ src = (.ok none, ⟨state, false⟩, left) := by
  simp only [decode, h, Bool.not_false, if_true]

theorem decode_unconnected_found (state : DecodeState) {src left : Bytes}
    (h : skipNoise false src = (true, left)) :
    decode ⟨state, false⟩ src =
      (liftFrame (Lib.LengthDelimited.decode maxFrameLength state left).1,
        ⟨(Lib.LengthDelimited.decode maxFrameLength state left).2.1, true⟩,
        (Lib.LengthDelimited.decode maxFrameLength state left).2.2) := by
  simp only [decode, h, Bool.not_true, Bool.false_eq_true, if_false]

def sessionResidual : Residual decode where
  holds := Session
  quiet := SessionQuiet
  step := by
    rintro ⟨state, hasConnected⟩ src future frames (⟨hflag, lone, rest, tail, hframes, hscan,
      hstep, hnoisy⟩ | hpending)
    · simp only at hflag hstep
      subst hflag
      rcases skipNoise_scan src future tail hscan with
        ⟨left, hskip, hnone, hleft⟩ | ⟨left, hskip, htail, hlength⟩
      · refine Or.inr ⟨⟨state, false⟩, left, decode_unconnected_none hskip, ?_, Or.inl ?_⟩
        · simpa [SessionQuiet] using hnone
        · exact ⟨rfl, lone, rest, tail, hframes, hleft, hstep, hnoisy⟩
      · obtain ⟨body, hdecode, hframe⟩ := decode_handshakeView hstep left
        refine Or.inl ⟨.handshake, rest, ⟨.head, true⟩, left, ?_, hlength, hframes, Or.inr ?_⟩
        · rw [decode_unconnected_found state hskip, hdecode]
          simp only [liftFrame, hframe]
          rfl
        · rw [htail]
          exact ⟨rfl, hnoisy⟩
    · have hflag : hasConnected = true := hpending.1
      subst hflag
      rcases connectedResidual.step ⟨state, true⟩ src future frames hpending with
        ⟨f, more, next, left, hcall, hlength, hframes, hnext⟩ |
        ⟨next, left, hcall, hquiet, hnext⟩
      · exact Or.inl ⟨f, more, next, left, hcall, hlength, hframes, Or.inr hnext⟩
      · refine Or.inr ⟨next, left, hcall, ?_, Or.inr hnext⟩
        have hnextFlag : next.hasConnected = true := hnext.1
        have hstarved : Starved next left := hquiet
        simpa [SessionQuiet, hnextFlag] using hstarved

theorem Scan.findSignature_ne_none {lone : Bool} {bytes tail : Bytes}
    (h : Scan lone bytes tail) : findSignature bytes ≠ none := by
  rcases h with ⟨garbage, rfl, hinfix, _⟩ | ⟨rfl, rfl⟩
  · rw [findSignature_handshake garbage tail hinfix]
    exact Option.some_ne_none _
  · exact Option.some_ne_none 4

/-- A stream that leads to a handshake is read completely: the handshake and
the frames come out, in every chunking. -/
theorem feedAll_session (state : DecodeState) (src : Bytes) (chunks : List Bytes)
    (lone : Bool) (rest : List Frame) (tail : Bytes)
    (hsrc : findSignature src = none) (hstep : InStep lone state)
    (hscan : Scan lone (src ++ chunks.flatten) tail) (hnoisy : Noisy rest tail) :
    feedAll decode ⟨state, false⟩ src chunks =
      ⟨.handshake :: rest, none, ⟨.head, true⟩, []⟩ := by
  obtain ⟨got, more, next, left, hfeed, hitems, hquiet, hend⟩ :=
    sessionResidual.feedAll_eq chunks ⟨state, false⟩ src (.handshake :: rest)
      (by simpa [sessionResidual, SessionQuiet] using hsrc)
      (Or.inl ⟨rfl, lone, rest, tail, rfl, hscan, hstep, hnoisy⟩)
  rcases hend with ⟨hflag, lone, _, _, _, hleft, _, _⟩ | hpending
  · have hnone : findSignature left = none := by
      simpa [sessionResidual, SessionQuiet, hflag] using hquiet
    exact absurd hnone hleft.findSignature_ne_none
  · have hstarved : Starved next left := by
      simpa [sessionResidual, SessionQuiet, hpending.1] using hquiet
    obtain ⟨rfl, rfl, rfl⟩ := pending_starved hpending hstarved
    rw [hfeed, hitems, List.append_nil]

end MullvadAppTests.TestRpc
