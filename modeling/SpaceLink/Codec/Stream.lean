import SpaceLink.Codec.Plain
import SpaceLink.Codec.Split

/-! # Element streams

Encoding needs the elements alone. Decoding needs the kind of every slot as well.
-/
namespace SpaceLink.Codec

def encode : Codec → List Element → Except CodecError Bytes
  | plain => Plain.encode
  | split => Split.encode

def decode : Codec → List Kind → Bytes → Except CodecError (List Element)
  | plain => Plain.decode
  | split => Split.decode

end SpaceLink.Codec
