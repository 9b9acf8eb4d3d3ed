import SeedChain.Operation.Basic
/-!
# Operations on bytes
-/

namespace SeedChain.Bytes

def operations : List (Operation Bytes) := Operation.withShared [
  .fixed "base64" 0 fun _ bytes _ => goOn (.text (toBase64 bytes)),
  .fixed "hex" 0 fun _ bytes _ => goOn (.text (toHex bytes)),
  .fixed "size" 0 fun _ bytes _ => goOn (.ofCount bytes.length),
  .fixed "utf8" 0 fun _ bytes _ => goOn (.text (decodeLossy bytes))]

end SeedChain.Bytes
