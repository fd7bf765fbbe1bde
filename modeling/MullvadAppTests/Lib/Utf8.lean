import MullvadAppTests.Lib.Text

/-!
Texts as the bytes of a file. The bytes that begin a text are either the beginning of it
or end within a character.
-/

namespace MullvadAppTests.Lib.Text

def utf8Encode (text : Text) : List UInt8 := text.flatMap String.utf8EncodeChar

def utf8Decode (data : List UInt8) : Option Text := data.toByteArray.utf8Decode?.map Array.toList

@[simp] theorem utf8Encode_cons (c : Char) (text : Text) :
    utf8Encode (c :: text) = String.utf8EncodeChar c ++ utf8Encode text := rfl

theorem utf8Decode_utf8Encode (text : Text) : utf8Decode (utf8Encode text) = some text := by
  have hdecode : (utf8Encode text).toByteArray.utf8Decode? = some text.toArray :=
    List.utf8Decode?_utf8Encode
  rw [utf8Decode, hdecode, Option.map_some]

theorem utf8Encode_of_utf8Decode {data : List UInt8} {text : Text} (h : utf8Decode data = some text) :
    data = utf8Encode text := by
  obtain ⟨chars, hchars, rfl⟩ := Option.map_eq_some_iff.mp h
  have hsome : data.toByteArray.utf8Decode?.isSome := by simp [hchars]
  have hencode := ByteArray.utf8Encode_get_utf8Decode? (h := hsome)
  simp only [hchars, Option.get_some] at hencode
  have hdata := congrArg (fun bytes : ByteArray => bytes.data.toList) hencode
  simpa [List.utf8Encode, utf8Encode] using hdata.symm

/-- The first character can be told from the bytes that follow it. -/
theorem head_of_utf8Encode {c d : Char} {rest others : List UInt8}
    (h : String.utf8EncodeChar c ++ rest = String.utf8EncodeChar d ++ others) : c = d := by
  have hfirst := congrArg (fun data : List UInt8 => data.toByteArray.utf8DecodeChar? 0) h
  simpa [List.toByteArray_append, ByteArray.utf8DecodeChar?_utf8EncodeChar_append] using hfirst

theorem prefix_of_utf8Encode {text whole : Text} (h : utf8Encode text <+: utf8Encode whole) :
    text <+: whole := by
  induction text generalizing whole with
  | nil => exact List.nil_prefix
  | cons c text ih =>
      obtain ⟨rest, hrest⟩ := h
      rw [utf8Encode_cons, List.append_assoc] at hrest
      cases whole with
      | nil =>
          have hempty := (List.append_eq_nil_iff.mp hrest).1
          exact absurd hempty String.utf8EncodeChar_ne_nil
      | cons d whole =>
          obtain rfl := head_of_utf8Encode hrest
          rw [utf8Encode_cons] at hrest
          rw [List.prefix_cons_inj]
          exact ih ⟨rest, List.append_cancel_left hrest⟩

end MullvadAppTests.Lib.Text
