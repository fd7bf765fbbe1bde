import Mathlib.Data.List.Basic
import Mathlib.Tactic

/-!
Incremental decoders: a decoder looks at a state and the buffered input and
either returns an item, asks for more input or fails, leaving a new state and
what remains of the buffer. A reader appends chunks to the buffer and calls the
decoder after each of them until it asks for more.

The rules here reduce a statement about every chunking of a stream to one call
of the decoder: `Residual` bundles a description of the items that the state,
the buffer and all bytes still to come stand for with the proof that one call
respects it, and `Mute` does the same for streams on which no item can come out.
-/

namespace MullvadAppTests.Lib.Incremental

variable {σ β ι ε : Type*}

/-- One call: the result, the next state and the rest of the buffer. -/
abbrev DecodeFn (σ β ι ε : Type*) :=
  σ → List β → Except ε (Option ι) × σ × List β

structure Outcome (σ β ι ε : Type*) where
  items : List ι
  error : Option ε
  state : σ
  buffer : List β
  deriving DecidableEq, Repr

def drainFuel (decode : DecodeFn σ β ι ε) : Nat → σ → List β → Outcome σ β ι ε
  | 0, s, buffer => ⟨[], none, s, buffer⟩
  | fuel + 1, s, buffer =>
      match decode s buffer with
      | (.ok (some item), next, rest) =>
          let out := drainFuel decode fuel next rest
          {out with items := item :: out.items}
      | (.ok none, next, rest) => ⟨[], none, next, rest⟩
      | (.error e, next, rest) => ⟨[], some e, next, rest⟩

/-- Call the decoder until it asks for more input or fails. A decoder that
consumes input with every item needs at most one call more than there are
buffered elements. -/
def drain (decode : DecodeFn σ β ι ε) (s : σ) (buffer : List β) :
    Outcome σ β ι ε :=
  drainFuel decode (buffer.length + 1) s buffer

/-- Append the chunks one by one, draining after each. A failed decoder is
not called again. -/
def feedAll (decode : DecodeFn σ β ι ε) :
    σ → List β → List (List β) → Outcome σ β ι ε
  | s, buffer, [] => ⟨[], none, s, buffer⟩
  | s, buffer, chunk :: chunks =>
      let out := drain decode s (buffer ++ chunk)
      match out.error with
      | some _ => out
      | none =>
          let rest := feedAll decode out.state out.buffer chunks
          {rest with items := out.items ++ rest.items}

/-- Every item costs at least one buffered element. -/
def Consumes (decode : DecodeFn σ β ι ε) : Prop :=
  ∀ s buffer item next left, decode s buffer = (.ok (some item), next, left) →
    left.length < buffer.length

theorem drainFuel_enough {decode : DecodeFn σ β ι ε} (hconsumes : Consumes decode)
    (fuel more : Nat) (s : σ) (buffer : List β) (hfuel : buffer.length < fuel) :
    drainFuel decode (fuel + more) s buffer = drainFuel decode fuel s buffer := by
  induction fuel generalizing s buffer with
  | zero => omega
  | succ fuel ih =>
      rw [Nat.succ_add]
      simp only [drainFuel]
      rcases hcall : decode s buffer with ⟨result, next, left⟩
      rcases result with e | item | item
      · rfl
      · rfl
      · have hleft := hconsumes s buffer item next left hcall
        simp only
        rw [ih next left (by omega)]

/-- The fuel of `drain` never runs out, so it unfolds like the loop it models. -/
theorem drain_of_item {decode : DecodeFn σ β ι ε} (hconsumes : Consumes decode)
    {s next : σ} {buffer left : List β} {item : ι}
    (hcall : decode s buffer = (.ok (some item), next, left)) :
    drain decode s buffer =
      {drain decode next left with items := item :: (drain decode next left).items} := by
  have hleft := hconsumes s buffer item next left hcall
  have hfuel : buffer.length = left.length + 1 + (buffer.length - left.length - 1) := by omega
  have henough := drainFuel_enough hconsumes (left.length + 1)
    (buffer.length - left.length - 1) next left (by omega)
  rw [drain, drainFuel, hcall]
  simp only
  rw [hfuel, henough]
  rfl

theorem items_feedAll_single (decode : DecodeFn σ β ι ε) (s : σ) (buffer chunk : List β) :
    (feedAll decode s buffer [chunk]).items = (drain decode s (buffer ++ chunk)).items := by
  simp only [feedAll]
  split
  · rfl
  · simp

/-- `holds s bytes items`: from state `s` the bytes, buffered and still to
come, stand for exactly these items. One call on any part of them that has
arrived returns the first item or asks for more, and then `quiet` says what is
known of the state and the buffer it leaves. -/
structure Residual (decode : DecodeFn σ β ι ε) where
  holds : σ → List β → List ι → Prop
  quiet : σ → List β → Prop
  step : ∀ s buffer future items, holds s (buffer ++ future) items →
    (∃ item rest next left, decode s buffer = (.ok (some item), next, left) ∧
      left.length < buffer.length ∧ items = item :: rest ∧
      holds next (left ++ future) rest) ∨
    (∃ next left, decode s buffer = (.ok none, next, left) ∧
      quiet next left ∧ holds next (left ++ future) items)

theorem Residual.drainFuel_eq {decode : DecodeFn σ β ι ε} (R : Residual decode)
    (fuel : Nat) (s : σ) (buffer future : List β) (items : List ι)
    (hfuel : buffer.length < fuel) (h : R.holds s (buffer ++ future) items) :
    ∃ got rest next left,
      drainFuel decode fuel s buffer = ⟨got, none, next, left⟩ ∧
      items = got ++ rest ∧ R.quiet next left ∧
      R.holds next (left ++ future) rest := by
  induction fuel generalizing s buffer items with
  | zero => omega
  | succ fuel ih =>
      rcases R.step s buffer future items h with
        ⟨item, rest, next, left, hcall, hlength, hitems, hrest⟩ |
        ⟨next, left, hcall, hquiet, hrest⟩
      · obtain ⟨got, more, last, final, hrun, hsplit, hquiet, hend⟩ :=
          ih next left rest (by omega) hrest
        refine ⟨item :: got, more, last, final, ?_, ?_, hquiet, hend⟩
        · simp only [drainFuel, hcall, hrun]
        · simp only [hitems, hsplit, List.cons_append]
      · refine ⟨[], items, next, left, ?_, rfl, hquiet, hrest⟩
        simp only [drainFuel, hcall]

/-- However the stream is cut, the reader collects the items in order, never
fails, and stops in a quiet state that stands for the items left over. -/
theorem Residual.feedAll_eq {decode : DecodeFn σ β ι ε} (R : Residual decode)
    (chunks : List (List β)) (s : σ) (buffer : List β) (items : List ι)
    (hquiet : R.quiet s buffer)
    (h : R.holds s (buffer ++ chunks.flatten) items) :
    ∃ got rest next left,
      feedAll decode s buffer chunks = ⟨got, none, next, left⟩ ∧
      items = got ++ rest ∧ R.quiet next left ∧
      R.holds next left rest := by
  induction chunks generalizing s buffer items with
  | nil =>
      refine ⟨[], items, s, buffer, rfl, rfl, hquiet, ?_⟩
      simpa using h
  | cons chunk chunks ih =>
      rw [List.flatten_cons, ← List.append_assoc] at h
      obtain ⟨got, rest, next, left, hdrain, hitems, hleft, hnext⟩ :=
        R.drainFuel_eq ((buffer ++ chunk).length + 1) s (buffer ++ chunk)
          chunks.flatten items (by omega) h
      obtain ⟨more, last, final, remaining, hfeed, hrest, hend, hfinal⟩ :=
        ih next left rest hleft hnext
      refine ⟨got ++ more, last, final, remaining, ?_, ?_, hend, hfinal⟩
      · simp only [feedAll, drain, hdrain, hfeed]
      · rw [hitems, hrest, List.append_assoc]

/-- Streams on which every call fails or asks for more. -/
structure Mute (decode : DecodeFn σ β ι ε) where
  holds : σ → List β → Prop
  step : ∀ s buffer future, holds s (buffer ++ future) →
    (∃ e next left, decode s buffer = (.error e, next, left)) ∨
    (∃ next left, decode s buffer = (.ok none, next, left) ∧
      holds next (left ++ future))

/-- No chunking of a mute stream makes an item come out. -/
theorem Mute.feedAll_items {decode : DecodeFn σ β ι ε} (M : Mute decode)
    (chunks : List (List β)) (s : σ) (buffer : List β)
    (h : M.holds s (buffer ++ chunks.flatten)) :
    (feedAll decode s buffer chunks).items = [] := by
  induction chunks generalizing s buffer with
  | nil => rfl
  | cons chunk chunks ih =>
      rw [List.flatten_cons, ← List.append_assoc] at h
      rcases M.step s (buffer ++ chunk) chunks.flatten h with
        ⟨e, next, left, hcall⟩ | ⟨next, left, hcall, hnext⟩
      · simp only [feedAll, drain, drainFuel, hcall]
      · simp only [feedAll, drain, drainFuel, hcall, List.nil_append]
        exact ih next left hnext

end MullvadAppTests.Lib.Incremental
