import SeguridadRedes.C.Process

namespace Crypto

open C (Bytes)

section Hmac

variable (H : Bytes → Bytes) (blockSize : Nat)

def zeroPad (key : Bytes) : Bytes := key ++ List.replicate (blockSize - key.length) 0

/-- The key of RFC 2104 brought to the block size: a longer key is hashed first. -/
def hmacBlock (key : Bytes) : Bytes :=
  zeroPad blockSize (if key.length ≤ blockSize then key else H key)

def innerPad (block : Bytes) : Bytes := block.map (· ^^^ 0x36)
def outerPad (block : Bytes) : Bytes := block.map (· ^^^ 0x5c)

def hmacWith (block text : Bytes) : Bytes := H (outerPad block ++ H (innerPad block ++ text))

/-- HMAC of RFC 2104. -/
def hmac (key text : Bytes) : Bytes := hmacWith H (hmacBlock H blockSize key) text

theorem hmac_of_short {key : Bytes} (short : key.length ≤ blockSize) (text : Bytes) :
    hmac H blockSize key text = hmacWith H (zeroPad blockSize key) text := by
  rw [hmac, hmacBlock, if_pos short]

end Hmac

end Crypto
