import SeguridadRedes.C.Process

namespace Crypto

open C (Bytes)

/-- A hash computed piece by piece: what the updates absorbed is hashed as their concatenation. -/
structure StreamingHash (size : Nat) where
  Context : Type
  init : Context
  update : Context → Bytes → Context
  final : Context → Vector UInt8 size
  hash : Bytes → Vector UInt8 size
  streaming : ∀ chunks : List Bytes, final (chunks.foldl update init) = hash chunks.flatten

namespace StreamingHash

variable {size : Nat}

def digest (h : StreamingHash size) (message : Bytes) : Bytes := (h.hash message).toList

@[simp] theorem digest_length (h : StreamingHash size) (message : Bytes) :
    (h.digest message).length = size := by
  simp [digest]

def ofFunction (hash : Bytes → Vector UInt8 size) : StreamingHash size where
  Context := Bytes
  init := []
  update absorbed data := absorbed ++ data
  final := hash
  hash := hash
  streaming := by
    intro chunks
    have absorbs : ∀ start : Bytes, chunks.foldl (fun absorbed data => absorbed ++ data) start =
        start ++ chunks.flatten := by
      induction chunks with
      | nil => simp
      | cons data rest ih => intro start; simp [ih]
    rw [absorbs, List.nil_append]

end StreamingHash

end Crypto
