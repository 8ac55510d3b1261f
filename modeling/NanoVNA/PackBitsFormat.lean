namespace NanoVNA.PackBitsFormat

/-- A packet stands for bytes as they are or for a byte with further copies of it. -/
inductive Packet
  | literal (bytes : List UInt8)
  | run (copies : Nat) (byte : UInt8)

def Packet.Valid : Packet → Prop
  | .literal bytes => 1 ≤ bytes.length ∧ bytes.length ≤ 128
  | .run copies _ => 1 ≤ copies ∧ copies ≤ 127

/-- The header counts the bytes after the first; it is negative for copies. -/
def Packet.encode : Packet → List UInt8
  | .literal bytes => UInt8.ofNat (bytes.length - 1) :: bytes
  | .run copies byte => [-(UInt8.ofNat copies), byte]

def Packet.expand : Packet → List UInt8
  | .literal bytes => bytes
  | .run copies byte => List.replicate (copies + 1) byte

def encode (packets : List Packet) : List UInt8 := packets.flatMap Packet.encode

def expand (packets : List Packet) : List UInt8 := packets.flatMap Packet.expand

@[simp] theorem encode_nil : encode [] = [] := rfl

@[simp] theorem expand_nil : expand [] = [] := rfl

@[simp] theorem encode_cons (p : Packet) (packets : List Packet) :
    encode (p :: packets) = p.encode ++ encode packets := List.flatMap_cons

@[simp] theorem expand_cons (p : Packet) (packets : List Packet) :
    expand (p :: packets) = p.expand ++ expand packets := List.flatMap_cons

theorem encode_concat (packets : List Packet) (p : Packet) :
    encode (packets ++ [p]) = encode packets ++ p.encode := by
  rw [encode, List.flatMap_append, List.flatMap_singleton, encode]

theorem expand_concat (packets : List Packet) (p : Packet) :
    expand (packets ++ [p]) = expand packets ++ p.expand := by
  rw [expand, List.flatMap_append, List.flatMap_singleton, expand]

theorem Packet.Valid.expand_pos {p : Packet} (h : p.Valid) : 0 < p.expand.length := by
  cases p with
  | literal bytes => exact h.1
  | run copies byte =>
    rw [Packet.expand, List.length_replicate]
    exact Nat.succ_pos copies

theorem valid_concat {packets : List Packet} {p : Packet} (h : ∀ q ∈ packets, q.Valid)
    (hp : p.Valid) : ∀ q ∈ packets ++ [p], q.Valid := by
  intro q hq
  obtain hq | hq := List.mem_append.mp hq
  · exact h q hq
  · exact List.mem_singleton.mp hq ▸ hp

end NanoVNA.PackBitsFormat
