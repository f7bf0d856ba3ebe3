import ApiModel.Text.Basic

/-!
# Variable-length integers

Natural numbers below `2 ^ 64` in base 128, the low digits first. Every byte but the last has its
high bit set. Reading takes at most ten bytes, of which the tenth may only hold the last bit.
-/

namespace ApiModel.Wire

/-- Reads a number from at most the given count of bytes. -/
def readVarintWithin : Nat → Bytes → Option (Nat × Bytes)
  | 0, _ => none
  | _, [] => none
  | budget + 1, byte :: rest =>
    if byte.toNat < 128 then
      if budget = 0 ∧ 2 ≤ byte.toNat then none else some (byte.toNat, rest)
    else
      (readVarintWithin budget rest).map fun (high, rest) => (byte.toNat - 128 + 128 * high, rest)

/-- Reads a number. -/
def readVarint (bytes : Bytes) : Option (Nat × Bytes) :=
  readVarintWithin 10 bytes

/-- Writes a number. -/
def writeVarint (n : Nat) : Bytes :=
  if n < 128 then [n.toUInt8] else (n % 128 + 128).toUInt8 :: writeVarint (n / 128)

/-- Reading consumes at least one byte. -/
theorem length_lt_of_readVarintWithin {budget n : Nat} {bytes rest : Bytes}
    (h : readVarintWithin budget bytes = some (n, rest)) : rest.length < bytes.length := by
  fun_induction readVarintWithin budget bytes generalizing n with
  | case1 | case2 | case3 => simp_all
  | case4 budget byte tail _ _ =>
    simp only [Option.some.injEq, Prod.mk.injEq] at h
    simp [h.2]
  | case5 budget byte tail _ ih =>
    obtain ⟨⟨high, after⟩, hread, heq⟩ := Option.map_eq_some_iff.1 h
    simp only [Prod.mk.injEq] at heq
    have := ih (heq.2 ▸ hread)
    simp only [List.length_cons]
    omega

/-- Reading consumes at least one byte. -/
theorem length_lt_of_readVarint {n : Nat} {bytes rest : Bytes}
    (h : readVarint bytes = some (n, rest)) : rest.length < bytes.length :=
  length_lt_of_readVarintWithin h

end ApiModel.Wire
