import Mathlib.Data.BitVec
import Mathlib.Data.Nat.Notation

/-!
# Internet addresses and networks

The texts that Python's `ipaddress` reads as addresses and as networks, and which
addresses a network holds: those that agree with it on as many leading bits as
its netmask has.
-/

namespace Nebularr

/-! ## Networks -/

section Network

variable {w : ℕ}

/-- `n` ones, then zeros. -/
def netmask (w n : ℕ) : BitVec w := BitVec.allOnes w ^^^ (BitVec.allOnes w >>> n)

/-- A network of addresses of `w` bits, without host bits. -/
structure Network (w : ℕ) where
  address : BitVec w
  prefixLength : Fin (w + 1)
  noHostBits : address &&& netmask w prefixLength = address

namespace Network

/-- The network of an address that may have host bits. -/
def around (address : BitVec w) (prefixLength : Fin (w + 1)) : Network w where
  address := address &&& netmask w prefixLength
  prefixLength := prefixLength
  noHostBits := by rw [BitVec.and_assoc, BitVec.and_self]

/-- `address in network`. -/
def holds (net : Network w) (address : BitVec w) : Bool :=
  address &&& netmask w net.prefixLength == net.address

end Network

theorem getMsbD_netmask (n i : ℕ) :
    (netmask w n).getMsbD i = (decide (i < w) && decide (i < n)) := by
  rw [netmask, BitVec.getMsbD_xor, BitVec.getMsbD_ushiftRight, BitVec.getMsbD_allOnes,
    BitVec.getMsbD_allOnes]
  by_cases hw : i < w
  · by_cases hn : i < n
    · simp [hw, hn]
    · have hshift : i - n < w := by omega
      simp [hw, hn, hshift]
  · simp [hw]

/-- Two addresses agree on their first bits. -/
def AgreeUpTo (n : ℕ) (a b : BitVec w) : Prop := ∀ i < n, a.getMsbD i = b.getMsbD i

theorem and_netmask_eq_iff {n : ℕ} {a b : BitVec w} :
    a &&& netmask w n = b &&& netmask w n ↔ AgreeUpTo n a b := by
  constructor
  · intro h i hi
    have hbit := congrArg (fun v => v.getMsbD i) h
    simp only [BitVec.getMsbD_and, getMsbD_netmask, hi, decide_true, Bool.and_true] at hbit
    by_cases hw : i < w
    · simpa [hw] using hbit
    · rw [BitVec.getMsbD_of_ge _ _ (by omega), BitVec.getMsbD_of_ge _ _ (by omega)]
  · intro h
    apply BitVec.eq_of_getMsbD_eq
    intro i hi
    rw [BitVec.getMsbD_and, BitVec.getMsbD_and, getMsbD_netmask]
    by_cases hn : i < n
    · rw [h i hn]
    · simp [hn]

/-- **A network holds the addresses that start as its own does.** -/
theorem Network.holds_iff {net : Network w} {a : BitVec w} :
    net.holds a = true ↔ AgreeUpTo net.prefixLength a net.address := by
  rw [Network.holds, beq_iff_eq, ← and_netmask_eq_iff, net.noHostBits]

end Network

/-! ## Texts of addresses -/

/-- An address of either version; the scope of one of version 6 plays no part. -/
inductive IpAddress
  | v4 (bits : BitVec 32)
  | v6 (bits : BitVec 128)
deriving DecidableEq, Repr

/-- The number that ASCII digits spell. -/
def asciiNumber (digits : List Char) : ℕ := digits.foldl (fun n c => 10 * n + (c.toNat - 48)) 0

/-- `str.isascii() and str.isdigit()`. -/
def isAsciiNumber (text : List Char) : Bool := !text.isEmpty && text.all Char.isDigit

/-- `_parse_octet`. -/
def parseOctet (octet : List Char) : Option (BitVec 8) :=
  if !isAsciiNumber octet then none
  else if octet.length > 3 then none
  -- a leading zero might be meant as octal
  else if octet ≠ ['0'] ∧ octet.head? = some '0' then none
  else if asciiNumber octet > 255 then none
  else some (BitVec.ofNat 8 (asciiNumber octet))

/-- `_ip_int_from_string` of version 4. -/
def ipv4IntFromString (text : List Char) : Option (BitVec 32) :=
  match text.splitOn '.' with
  | [a, b, c, d] => do
      let a ← parseOctet a
      let b ← parseOctet b
      let c ← parseOctet c
      let d ← parseOctet d
      return a ++ b ++ c ++ d
  | _ => none

/-- `IPv4Address(text)`. -/
def ipv4Address (text : List Char) : Option (BitVec 32) :=
  if '/' ∈ text then none else ipv4IntFromString text

/-- The value of a digit of `_HEX_DIGITS`. -/
def hexDigit (c : Char) : Option ℕ :=
  if '0' ≤ c ∧ c ≤ '9' then some (c.toNat - 48)
  else if 'a' ≤ c ∧ c ≤ 'f' then some (c.toNat - 87)
  else if 'A' ≤ c ∧ c ≤ 'F' then some (c.toNat - 55)
  else none

/-- `_parse_hextet`; `int("", 16)` is an error. -/
def parseHextet (hextet : List Char) : Option ℕ := do
  let digits ← hextet.mapM hexDigit
  if hextet.length > 4 then none
  else if hextet.isEmpty then none
  else some (digits.foldl (fun n d => 16 * n + d) 0)

/-- A text cut at its colons, with a last part in dots written as two hextets. -/
def hextetTexts (text : List Char) : Option (List (List Char)) :=
  let parts := text.splitOn ':'
  if parts.length < 3 then none
  else
    match parts.getLast? with
    | some last =>
        if '.' ∈ last then do
          let ipv4 ← ipv4Address last
          return parts.dropLast ++
            [Nat.toDigits 16 (ipv4 >>> 16).toNat, Nat.toDigits 16 (ipv4 &&& 0xffff).toNat]
        else some parts
    | none => none

/-- The inner parts that are empty: those of a `::`. -/
def skipIndices (parts : List (List Char)) : List ℕ :=
  (List.range (parts.length - 1)).filter fun i => 0 < i && (parts.getD i []).isEmpty

/-- `parts_hi`, `parts_lo` and `parts_skipped`. -/
def hextetCounts (parts : List (List Char)) : Option (ℕ × ℕ × ℕ) :=
  let leading := (parts.getD 0 []).isEmpty
  let trailing := (parts.getD (parts.length - 1) []).isEmpty
  match skipIndices parts with
  | [] =>
      if parts.length ≠ 8 then none
      else if leading then none
      else if trailing then none
      else some (parts.length, 0, 0)
  | [skip] =>
      let hi := if leading then skip - 1 else skip
      let lo := if trailing then parts.length - skip - 2 else parts.length - skip - 1
      if leading ∧ hi ≠ 0 then none
      else if trailing ∧ lo ≠ 0 then none
      else if 8 < hi + lo + 1 then none
      else some (hi, lo, 8 - (hi + lo))
  | _ => none

/-- `_ip_int_from_string` of version 6, which stops at nine parts. -/
def ipv6IntFromString (text : List Char) : Option (BitVec 128) := do
  let parts ← hextetTexts text
  if parts.length > 9 then none
  else
    let (hi, lo, skipped) ← hextetCounts parts
    let highs ← (parts.take hi).mapM parseHextet
    let lows ← (parts.drop (parts.length - lo)).mapM parseHextet
    let high := highs.foldl (fun n h => n <<< 16 ||| h) 0
    return BitVec.ofNat 128 (lows.foldl (fun n h => n <<< 16 ||| h) (high <<< (16 * skipped)))

/-- `_split_scope_id`, without the scope. -/
def splitScopeId (text : List Char) : Option (List Char) :=
  match text.splitOn '%' with
  | [addr] => some addr
  | [addr, scope] => if scope.isEmpty then none else some addr
  | _ => none

/-- `IPv6Address(text)`. -/
def ipv6Address (text : List Char) : Option (BitVec 128) :=
  if '/' ∈ text then none else (splitScopeId text).bind ipv6IntFromString

/-- `ip_address(text)`; `none` for a `ValueError`. -/
def ipAddress (text : String) : Option IpAddress :=
  ((ipv4Address text.toList).map IpAddress.v4).or ((ipv6Address text.toList).map IpAddress.v6)

/-! ## Texts of networks -/

/-- A network of either version. -/
inductive IpNetwork
  | v4 (net : Network 32)
  | v6 (net : Network 128)

/-- `address in network`. -/
def IpNetwork.holds : IpNetwork → IpAddress → Bool
  | .v4 net, .v4 bits => net.holds bits
  | .v6 net, .v6 bits => net.holds bits
  | _, _ => false

/-- An address starts as the network's own does. -/
def IpNetwork.Covers : IpNetwork → IpAddress → Prop
  | .v4 net, .v4 bits => AgreeUpTo net.prefixLength bits net.address
  | .v6 net, .v6 bits => AgreeUpTo net.prefixLength bits net.address
  | _, _ => False

theorem IpNetwork.holds_iff {net : IpNetwork} {addr : IpAddress} :
    net.holds addr = true ↔ net.Covers addr := by
  cases net with
  | v4 net =>
      cases addr with
      | v4 bits => exact Network.holds_iff
      | v6 bits => exact iff_of_false Bool.false_ne_true id
  | v6 net =>
      cases addr with
      | v4 bits => exact iff_of_false Bool.false_ne_true id
      | v6 bits => exact Network.holds_iff

/-- `_split_optional_netmask`. -/
def splitOptionalNetmask (text : List Char) : Option (List Char × Option (List Char)) :=
  match text.splitOn '/' with
  | [addr] => some (addr, none)
  | [addr, mask] => some (addr, some mask)
  | _ => none

/-- `_prefix_from_prefix_string`; `int` refuses more than 4300 digits. -/
def prefixFromPrefixString (w : ℕ) (mask : List Char) : Option (Fin (w + 1)) :=
  if !isAsciiNumber mask then none
  else if mask.length > 4300 then none
  else if h : asciiNumber mask < w + 1 then some ⟨asciiNumber mask, h⟩
  else none

/-- `_prefix_from_ip_int`: the number of ones before the zeros at the end. -/
def prefixFromIpInt (mask : BitVec 32) : Option (Fin 33) :=
  let trailingZeroes := mask.ctz.toNat
  if mask.toNat >>> trailingZeroes = 2 ^ (32 - trailingZeroes) - 1 then
    some ⟨32 - trailingZeroes, by omega⟩
  else none

/-- `_prefix_from_ip_string`: a netmask, or else a hostmask. -/
def prefixFromIpString (mask : List Char) : Option (Fin 33) :=
  (ipv4IntFromString mask).bind fun bits => (prefixFromIpInt bits).or (prefixFromIpInt (~~~bits))

/-- `IPv4Network(text, strict=False)`. -/
def ipv4Network (text : List Char) : Option (Network 32) := do
  let (addr, mask) ← splitOptionalNetmask text
  let address ← ipv4Address addr
  match mask with
  | none => return Network.around address (Fin.last 32)
  | some mask =>
      let prefixlen ← (prefixFromPrefixString 32 mask).or (prefixFromIpString mask)
      return Network.around address prefixlen

/-- `IPv6Network(text, strict=False)`, which knows prefix lengths only. -/
def ipv6Network (text : List Char) : Option (Network 128) := do
  let (addr, mask) ← splitOptionalNetmask text
  let address ← ipv6Address addr
  match mask with
  | none => return Network.around address (Fin.last 128)
  | some mask =>
      let prefixlen ← prefixFromPrefixString 128 mask
      return Network.around address prefixlen

/-- `ip_network(text, strict=False)`; `none` for a `ValueError`. -/
def ipNetwork (text : String) : Option IpNetwork :=
  ((ipv4Network text.toList).map IpNetwork.v4).or ((ipv6Network text.toList).map IpNetwork.v6)

end Nebularr
