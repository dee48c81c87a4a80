import ThreatOrbit.Lib.Python

/-
  Internet addresses and networks, read and compared as the
  `ipaddress` module does, with its registry of the ranges
  that are not public.

  Key definitions:
    * `IpAddress`, `IpNetwork`
    * `ipAddress`, `ipNetwork`
    * `IpAddress.isPrivate` and the other range checks
-/

---- Addresses

namespace Lib

/- An address; a version 6 address may name a scope. -/
inductive IpAddress where
| v4 (ip : BitVec 32)
| v6 (ip : BitVec 128) (scope : Option Str)
deriving DecidableEq, Repr

/- `IPv4Address._parse_octet`. -/
def parseOctet (s : Str) : Option Nat :=
  if s = [] || !s.all isDigit then
    none
  else if 3 < s.length then
    none
  else if s ≠ lit "0" && s.head? = some (cp '0') then
    none
  else if 255 < digitsNat s then
    none
  else
    some (digitsNat s)

/- `IPv4Address._ip_int_from_string`. -/
def v4OfString (s : Str) : Option (BitVec 32) :=
  match splitOn (cp '.') s with
  | [a, b, c, d] => do
      let a ← parseOctet a
      let b ← parseOctet b
      let c ← parseOctet c
      let d ← parseOctet d
      some (BitVec.ofNat 32
        (((a * 256 + b) * 256 + c) * 256 + d))
  | _ => none

/- The value of a hexadecimal digit. -/
def hexDigitVal (c : Nat) : Option Nat :=
  if isDigit c then some (c - cp '0')
  else if cp 'a' ≤ c && c ≤ cp 'f' then some (c - cp 'a' + 10)
  else if cp 'A' ≤ c && c ≤ cp 'F' then some (c - cp 'A' + 10)
  else none

/- The number a run of hexadecimal digits denotes. -/
def hexNat (s : Str) : Option Nat :=
  s.foldlM (fun n c => (hexDigitVal c).map (16 * n + ·)) 0

/- `IPv6Address._parse_hextet`. -/
def parseHextet (s : Str) : Option Nat :=
  if s = [] || 4 < s.length then none else hexNat s

/- A list of hextets as one number. -/
def hextetsNat (parts : List Str) : Option Nat :=
  parts.foldlM
    (fun n part => (parseHextet part).map (65536 * n + ·)) 0

/- The parts of an address, a dotted tail made hexadecimal. -/
def v6Parts (s : Str) : Option (List Str) :=
  let parts := splitOn (cp ':') s
  if parts.length < 3 then
    none
  else
    match parts.getLast? with
    | none => none
    | some last =>
        if last.contains (cp '.') then
          (v4OfString last).map fun ip =>
            parts.dropLast ++
              [hexStr 4 (ip.toNat / 65536),
                hexStr 4 (ip.toNat % 65536)]
        else
          some parts

/- The inner positions of an address with an empty part. -/
def skipIndices (parts : List Str) : List Nat :=
  (List.range parts.length).filter fun i =>
    1 ≤ i && i < parts.length - 1 && parts[i]? == some []

/- `IPv6Address._ip_int_from_string`. -/
def v6OfString (s : Str) : Option (BitVec 128) := do
  let parts ← v6Parts s
  if 9 < parts.length then
    none
  else
    match skipIndices parts with
    | [] =>
        if parts.length = 8 then
          (hextetsNat parts).map (BitVec.ofNat 128)
        else
          none
    | [skip] =>
        let leading := parts.head? == some []
        let trailing := parts.getLast? == some []
        let hi := if leading then skip - 1 else skip
        let after := parts.length - skip - 1
        let lo := if trailing then after - 1 else after
        if leading && hi ≠ 0 then none
        else if trailing && lo ≠ 0 then none
        else if 8 < hi + lo + 1 then none
        else do
          let high ← hextetsNat (parts.take hi)
          let low ← hextetsNat
            (parts.drop (parts.length - lo))
          some (BitVec.ofNat 128
            (high * 65536 ^ (8 - hi) + low))
    | _ => none

/- `IPv6Address._split_scope_id`. -/
def splitScope (s : Str) : Option (Str × Option Str) :=
  let addr := s.takeWhile (· != cp '%')
  match s.dropWhile (· != cp '%') with
  | [] => some (addr, none)
  | _ :: scope =>
      if scope = [] || scope.contains (cp '%') then none
      else some (addr, some scope)

/- `IPv4Address(text)`. -/
def v4Address (s : Str) : Option (BitVec 32) :=
  if s.contains (cp '/') then none else v4OfString s

/- `IPv6Address(text)`. -/
def v6Address (s : Str) : Option (BitVec 128 × Option Str) :=
  if s.contains (cp '/') then
    none
  else do
    let (addr, scope) ← splitScope s
    let ip ← v6OfString addr
    some (ip, scope)

/- `ip_address(text)`, `none` where it raises. -/
def ipAddress (s : Str) : Option IpAddress :=
  match v4Address s with
  | some ip => some (.v4 ip)
  | none => (v6Address s).map fun out => .v6 out.1 out.2

---- Networks

/- A block of addresses that share a prefix. -/
structure Block (w : Nat) where
  base : BitVec w
  prefixlen : Fin (w + 1)
deriving DecidableEq, Repr

/- The addresses that agree with the base on the prefix. -/
def Block.contains
    {w : Nat}
    (b : Block w)
    (ip : BitVec w) : Bool :=
  ip >>> (w - b.prefixlen) == b.base >>> (w - b.prefixlen)

inductive IpNetwork where
| v4 (block : Block 32)
| v6 (block : Block 128)
deriving DecidableEq, Repr

/- `ip in network`, false across versions. -/
def IpNetwork.contains : IpNetwork → IpAddress → Bool
| .v4 block, .v4 ip => block.contains ip
| .v6 block, .v6 ip _ => block.contains ip
| _, _ => false

/- `_prefix_from_prefix_string`. -/
def prefixOfString (w : Nat) (s : Str) : Option (Fin (w + 1)) :=
  if s = [] || !s.all isDigit || maxStrDigits < s.length then
    none
  else if h : digitsNat s < w + 1 then
    some ⟨digitsNat s, h⟩
  else
    none

/- The prefix length whose netmask is a number. -/
def prefixOfMask (mask : BitVec 32) : Option (Fin 33) :=
  (List.finRange 33).find? fun p =>
    mask == BitVec.allOnes 32 <<< (32 - p.val)

/- `IPv4Network._make_netmask`: a length, net or host mask. -/
def v4Prefix (s : Str) : Option (Fin 33) :=
  match prefixOfString 32 s with
  | some p => some p
  | none =>
      (v4OfString s).bind fun mask =>
        match prefixOfMask mask with
        | some p => some p
        | none => prefixOfMask (~~~mask)

/- The address and the mask of a network text. -/
def splitMask (s : Str) : Option (Str × Option Str) :=
  match splitOn (cp '/') s with
  | [addr] => some (addr, none)
  | [addr, mask] => some (addr, some mask)
  | _ => none

/- `IPv4Network(text, strict=False)`. -/
def v4Network (s : Str) : Option (Block 32) := do
  let (addr, mask) ← splitMask s
  let ip ← v4Address addr
  let p ← mask.elim (some ⟨32, by omega⟩) v4Prefix
  some ⟨ip, p⟩

/- `IPv6Network(text, strict=False)`. -/
def v6Network (s : Str) : Option (Block 128) := do
  let (addr, mask) ← splitMask s
  let ip ← v6Address addr
  let p ← mask.elim (some ⟨128, by omega⟩) (prefixOfString 128)
  some ⟨ip.1, p⟩

/- `ip_network(text, strict=False)`. -/
def ipNetwork (s : Str) : Option IpNetwork :=
  match v4Network s with
  | some block => some (.v4 block)
  | none => (v6Network s).map .v6

---- The Registry Of Special Ranges

/- A version 4 block in dotted notation. -/
def v4Block (a b c d : Nat) (p : Fin 33) : Block 32 :=
  ⟨BitVec.ofNat 32 (((a * 256 + b) * 256 + c) * 256 + d), p⟩

/- A version 6 block, by its first hextets. -/
def v6Block (hextets : List Nat) (p : Fin 129) : Block 128 :=
  let high := hextets.foldl (fun n h => 65536 * n + h) 0
  ⟨BitVec.ofNat 128 (high * 65536 ^ (8 - hextets.length)), p⟩

/- `_IPv4Constants`. -/
def v4Private : List (Block 32) :=
  [v4Block 0 0 0 0 8, v4Block 10 0 0 0 8,
    v4Block 127 0 0 0 8, v4Block 169 254 0 0 16,
    v4Block 172 16 0 0 12, v4Block 192 0 0 0 24,
    v4Block 192 0 0 170 31, v4Block 192 0 2 0 24,
    v4Block 192 168 0 0 16, v4Block 198 18 0 0 15,
    v4Block 198 51 100 0 24, v4Block 203 0 113 0 24,
    v4Block 240 0 0 0 4, v4Block 255 255 255 255 32]

def v4PrivateExceptions : List (Block 32) :=
  [v4Block 192 0 0 9 32, v4Block 192 0 0 10 32]

def v4Loopback : Block 32 := v4Block 127 0 0 0 8

def v4LinkLocal : Block 32 := v4Block 169 254 0 0 16

def v4Reserved : Block 32 := v4Block 240 0 0 0 4

def v4Multicast : Block 32 := v4Block 224 0 0 0 4

/- `_IPv6Constants`. -/
def v6Private : List (Block 128) :=
  [v6Block [0, 0, 0, 0, 0, 0, 0, 1] 128, v6Block [] 128,
    v6Block [0, 0, 0, 0, 0, 0xffff] 96,
    v6Block [0x64, 0xff9b, 1] 48, v6Block [0x100] 64,
    v6Block [0x2001] 23, v6Block [0x2001, 0xdb8] 32,
    v6Block [0x2002] 16, v6Block [0xfc00] 7,
    v6Block [0xfe80] 10]

def v6PrivateExceptions : List (Block 128) :=
  [v6Block [0x2001, 1, 0, 0, 0, 0, 0, 1] 128,
    v6Block [0x2001, 1, 0, 0, 0, 0, 0, 2] 128,
    v6Block [0x2001, 3] 32, v6Block [0x2001, 4, 0x112] 48,
    v6Block [0x2001, 0x20] 28, v6Block [0x2001, 0x30] 28]

def v6LinkLocal : Block 128 := v6Block [0xfe80] 10

def v6Reserved : List (Block 128) :=
  [v6Block [] 8, v6Block [0x100] 8, v6Block [0x200] 7,
    v6Block [0x400] 6, v6Block [0x800] 5, v6Block [0x1000] 4,
    v6Block [0x4000] 3, v6Block [0x6000] 3,
    v6Block [0x8000] 3, v6Block [0xa000] 3,
    v6Block [0xc000] 3, v6Block [0xe000] 4,
    v6Block [0xf000] 5, v6Block [0xf800] 6,
    v6Block [0xfe00] 9]

def v6Multicast : Block 128 := v6Block [0xff00] 8

/- In a range of a list, and in none of the exceptions. -/
def inRanges
    {w : Nat}
    (ranges exceptions : List (Block w))
    (ip : BitVec w) : Bool :=
  ranges.any (·.contains ip) &&
    exceptions.all (!·.contains ip)

/- The version 4 address an IPv4-mapped address stands for. -/
def ipv4Mapped (ip : BitVec 128) : Option (BitVec 32) :=
  if ip >>> 32 = 0xffff then some (ip.setWidth 32) else none

namespace IpAddress

def isPrivate : IpAddress → Bool
| .v4 ip => inRanges v4Private v4PrivateExceptions ip
| .v6 ip _ =>
    match ipv4Mapped ip with
    | some mapped =>
        inRanges v4Private v4PrivateExceptions mapped
    | none => inRanges v6Private v6PrivateExceptions ip

def isLoopback : IpAddress → Bool
| .v4 ip => v4Loopback.contains ip
| .v6 ip _ => ip == 1

def isLinkLocal : IpAddress → Bool
| .v4 ip => v4LinkLocal.contains ip
| .v6 ip _ => v6LinkLocal.contains ip

def isReserved : IpAddress → Bool
| .v4 ip => v4Reserved.contains ip
| .v6 ip _ => v6Reserved.any (·.contains ip)

def isMulticast : IpAddress → Bool
| .v4 ip => v4Multicast.contains ip
| .v6 ip _ => v6Multicast.contains ip

def isUnspecified : IpAddress → Bool
| .v4 ip => ip == 0
| .v6 ip _ => ip == 0

end IpAddress

end Lib
