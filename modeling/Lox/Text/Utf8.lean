namespace Lox.Text.Utf8

/-!
# UTF-8

Encoding of text as bytes and decoding of arbitrary bytes.  Decoding is one
pass over the bytes with at most one unfinished sequence; a byte that cannot
continue the unfinished sequence ends it as ill-formed and is then read as the
start of the next one.  Every maximal ill-formed run that begins a well-formed
sequence is therefore reported once.
-/

/-- The bytes of one text. -/
def encode (text : String) : List UInt8 :=
  text.toList.flatMap String.utf8EncodeChar

/-- A sequence whose lead byte has been read and that still lacks bytes. -/
structure Unfinished where
  value : Nat
  missing : Nat
  lowest : UInt8
  highest : UInt8
  deriving Repr, DecidableEq

/-- What one byte at the start of a sequence stands for. -/
inductive Lead where
  | single (scalar : Char)
  | opening (sequence : Unfinished)
  | illFormed
  deriving Repr, DecidableEq

/-- Classify the first byte of a sequence. -/
def lead (byte : UInt8) : Lead :=
  let bits := byte.toNat
  if byte < 0x80 then .single (Char.ofNat bits)
  else if byte < 0xC2 then .illFormed
  else if byte < 0xE0 then .opening ⟨bits - 0xC0, 1, 0x80, 0xBF⟩
  else if byte = 0xE0 then .opening ⟨0, 2, 0xA0, 0xBF⟩
  else if byte = 0xED then .opening ⟨0xD, 2, 0x80, 0x9F⟩
  else if byte < 0xF0 then .opening ⟨bits - 0xE0, 2, 0x80, 0xBF⟩
  else if byte = 0xF0 then .opening ⟨0, 3, 0x90, 0xBF⟩
  else if byte < 0xF4 then .opening ⟨bits - 0xF0, 3, 0x80, 0xBF⟩
  else if byte = 0xF4 then .opening ⟨4, 3, 0x80, 0x8F⟩
  else .illFormed

/-- Whether a byte may come next in an unfinished sequence. -/
def Unfinished.accepts (sequence : Unfinished) (byte : UInt8) : Bool :=
  sequence.lowest ≤ byte && byte ≤ sequence.highest

/-- The value of an unfinished sequence extended by one more byte. -/
def Unfinished.extended (sequence : Unfinished) (byte : UInt8) : Nat :=
  sequence.value * 64 + (byte.toNat - 0x80)

/--
The scalars of a byte string in order, where `none` stands for one ill-formed
run of bytes.
-/
def decodeFrom : Option Unfinished → List UInt8 → List (Option Char)
  | none, [] => []
  | some _, [] => [none]
  | none, byte :: rest =>
      match lead byte with
      | .single scalar => some scalar :: decodeFrom none rest
      | .opening sequence => decodeFrom (some sequence) rest
      | .illFormed => none :: decodeFrom none rest
  | some sequence, byte :: rest =>
      if sequence.accepts byte then
        if sequence.missing ≤ 1 then
          some (Char.ofNat (sequence.extended byte)) :: decodeFrom none rest
        else
          decodeFrom
            (some ⟨sequence.extended byte, sequence.missing - 1, 0x80, 0xBF⟩)
            rest
      else
        match lead byte with
        | .single scalar => none :: some scalar :: decodeFrom none rest
        | .opening next => none :: decodeFrom (some next) rest
        | .illFormed => none :: none :: decodeFrom none rest

/-- The scalars of a whole byte string, ill-formed runs as `none`. -/
def decode (bytes : List UInt8) : List (Option Char) :=
  decodeFrom none bytes

/-- The replacement character, which stands in for an ill-formed run. -/
def replacement : Char := '\uFFFD'

/-- The text of a byte string with every ill-formed run replaced. -/
def decodeLossy (bytes : List UInt8) : String :=
  String.ofList ((decode bytes).map (·.getD replacement))

/-- The text of a byte string, if it is well formed throughout. -/
def decode? (bytes : List UInt8) : Option String :=
  ((decode bytes).mapM id).map String.ofList

end Lox.Text.Utf8
