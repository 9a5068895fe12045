import TouchBar.Rust.Text

/-!
# Internet addresses

The addresses of `std::net`: how they are read and written as text, their order,
and the classes that the modelled code asks for.
-/

namespace TouchBar.Rust.Net

@[ext]
structure Ipv4Addr where
  a : UInt8
  b : UInt8
  c : UInt8
  d : UInt8
deriving DecidableEq, Repr

@[ext]
structure Ipv6Addr where
  s₀ : UInt16
  s₁ : UInt16
  s₂ : UInt16
  s₃ : UInt16
  s₄ : UInt16
  s₅ : UInt16
  s₆ : UInt16
  s₇ : UInt16
deriving DecidableEq, Repr

inductive IpAddr where
  | v4 (address : Ipv4Addr)
  | v6 (address : Ipv6Addr)
deriving DecidableEq, Repr

/-! ## Classes -/

namespace Ipv4Addr

def broadcast : Ipv4Addr := ⟨255, 255, 255, 255⟩

def isUnspecified (address : Ipv4Addr) : Bool := address = ⟨0, 0, 0, 0⟩

def isMulticast (address : Ipv4Addr) : Bool := 224 ≤ address.a && address.a ≤ 239

def isPrivate (address : Ipv4Addr) : Bool :=
  address.a == 10 || (address.a == 172 && 16 ≤ address.b && address.b ≤ 31) ||
    (address.a == 192 && address.b == 168)

def isLoopback (address : Ipv4Addr) : Bool := address.a == 127

def isLinkLocal (address : Ipv4Addr) : Bool := address.a == 169 && address.b == 254

/-- `Display`. -/
def display (address : Ipv4Addr) : String :=
  ".".intercalate [toString address.a, toString address.b, toString address.c, toString address.d]

/-- The numbers that the derived order compares. -/
def key (address : Ipv4Addr) : List ℕ :=
  [address.a.toNat, address.b.toNat, address.c.toNat, address.d.toNat]

end Ipv4Addr

/-- The address whose bytes are those of two segments. -/
def Ipv4Addr.ofSegments (high low : UInt16) : Ipv4Addr :=
  ⟨(high >>> 8).toUInt8, high.toUInt8, (low >>> 8).toUInt8, low.toUInt8⟩

namespace Ipv6Addr

def segments (address : Ipv6Addr) : List UInt16 :=
  [address.s₀, address.s₁, address.s₂, address.s₃, address.s₄, address.s₅, address.s₆, address.s₇]

def isUnspecified (address : Ipv6Addr) : Bool := address = ⟨0, 0, 0, 0, 0, 0, 0, 0⟩

def isLoopback (address : Ipv6Addr) : Bool := address = ⟨0, 0, 0, 0, 0, 0, 0, 1⟩

def isMulticast (address : Ipv6Addr) : Bool := address.s₀ &&& 0xff00 == 0xff00

def toIpv4Mapped (address : Ipv6Addr) : Option Ipv4Addr :=
  if (address.segments.take 5).all (· == 0) && address.s₅ == 0xffff then
    some (.ofSegments address.s₆ address.s₇)
  else
    none

/-- The first of the longest runs of zeros that starts at or after a position, as start and
length; `start` and `length` describe the run that ends here. -/
def longestZeros : List UInt16 → ℕ → ℕ × ℕ → ℕ × ℕ → ℕ × ℕ
  | [], _, _, longest => longest
  | segment :: rest, i, (start, length), longest =>
    if segment = 0 then
      let current := (if length = 0 then i else start, length + 1)
      longestZeros rest (i + 1) current (if longest.2 < current.2 then current else longest)
    else
      longestZeros rest (i + 1) (0, 0) longest

def displaySegments (segments : List UInt16) : String :=
  ":".intercalate (segments.map fun segment => .ofList (Nat.toDigits 16 segment.toNat))

/-- `Display`. -/
def display (address : Ipv6Addr) : String :=
  match address.toIpv4Mapped with
  | some mapped => "::ffff:" ++ mapped.display
  | none =>
    let (start, length) := longestZeros address.segments 0 (0, 0) (0, 0)
    if 1 < length then
      displaySegments (address.segments.take start) ++ "::" ++
        displaySegments (address.segments.drop (start + length))
    else
      displaySegments address.segments

def key (address : Ipv6Addr) : List ℕ := address.segments.map UInt16.toNat

end Ipv6Addr

example : Ipv6Addr.display ⟨0x2001, 0xdb8, 0, 0, 1, 0, 0, 1⟩ = "2001:db8::1:0:0:1" := by
  decide

/-! ## Parsing -/

/-- `char::to_digit` for a radix up to 16. -/
def digit (radix : ℕ) (c : Char) : Option ℕ :=
  let value :=
    if c.isDigit then some (c.toNat - '0'.toNat)
    else if 'a' ≤ c ∧ c ≤ 'f' then some (c.toNat - 'a'.toNat + 10)
    else if 'A' ≤ c ∧ c ≤ 'F' then some (c.toNat - 'A'.toNat + 10)
    else none
  value.filter (· < radix)

/-- `read_number` for at most `maxDigits` digits and a largest value. -/
def readNumber (radix maxDigits largest : ℕ) (allowZero : Bool) (s : List Char) :
    Option (ℕ × List Char) :=
  let digits := s.takeWhile fun c => (digit radix c).isSome
  let value := (digits.filterMap (digit radix)).foldl (fun n d => n * radix + d) 0
  if digits.length = 0 ∨ maxDigits < digits.length then none
  else if !allowZero ∧ digits.head? = some '0' ∧ 1 < digits.length then none
  else if largest < value then none
  else some (value, s.drop digits.length)

/-- `read_separator`: the first element has no separator before it. -/
def readSeparator {α : Type} (sep : Char) (first : Bool)
    (inner : List Char → Option (α × List Char)) (s : List Char) : Option (α × List Char) :=
  if first then inner s
  else
    match s with
    | c :: s => if c = sep then inner s else none
    | [] => none

def readIpv4Addr (s : List Char) : Option (Ipv4Addr × List Char) := do
  let (a, s) ← readSeparator '.' true (readNumber 10 3 255 false) s
  let (b, s) ← readSeparator '.' false (readNumber 10 3 255 false) s
  let (c, s) ← readSeparator '.' false (readNumber 10 3 255 false) s
  let (d, s) ← readSeparator '.' false (readNumber 10 3 255 false) s
  return (⟨a.toUInt8, b.toUInt8, c.toUInt8, d.toUInt8⟩, s)

/-- `read_groups`, with the number of groups that may still follow: the groups, whether an
embedded IPv4 address came last, and the rest. -/
def readGroups (limit : ℕ) : ℕ → List Char → List ℕ × Bool × List Char
  | 0, s => ([], false, s)
  | left + 1, s =>
    let first := decide (left + 1 = limit)
    match if 1 ≤ left then readSeparator ':' first readIpv4Addr s else none with
    | some (v4, s) =>
      ([v4.a.toNat * 256 + v4.b.toNat, v4.c.toNat * 256 + v4.d.toNat], true, s)
    | none =>
      match readSeparator ':' first (readNumber 16 4 0xffff true) s with
      | some (group, s) =>
        let (groups, embedded, s) := readGroups limit left s
        (group :: groups, embedded, s)
      | none => ([], false, s)

def Ipv6Addr.ofGroups : List ℕ → Option Ipv6Addr
  | [a, b, c, d, e, f, g, h] =>
    some ⟨a.toUInt16, b.toUInt16, c.toUInt16, d.toUInt16, e.toUInt16, f.toUInt16, g.toUInt16,
      h.toUInt16⟩
  | _ => none

def readIpv6Addr (s : List Char) : Option (Ipv6Addr × List Char) :=
  let (head, embedded, s) := readGroups 8 8 s
  if head.length = 8 then (Ipv6Addr.ofGroups head).map (·, s)
  else if embedded then none
  else
    match s with
    | ':' :: ':' :: s =>
      let limit := 8 - (head.length + 1)
      let (tail, _, s) := readGroups limit limit s
      (Ipv6Addr.ofGroups
        (head ++ List.replicate (8 - head.length - tail.length) 0 ++ tail)).map (·, s)
    | _ => none

/-- `s.parse::<IpAddr>()`. -/
def parseIpAddr (s : String) : Option IpAddr :=
  let parsed :=
    match readIpv4Addr s.toList with
    | some (address, rest) => some (IpAddr.v4 address, rest)
    | none => (readIpv6Addr s.toList).map fun (address, rest) => (IpAddr.v6 address, rest)
  match parsed with
  | some (address, []) => some address
  | _ => none

example :
    parseIpAddr "64:ff9b::192.0.2.1" = some (.v6 ⟨0x64, 0xff9b, 0, 0, 0, 0, 0xc000, 0x201⟩) := by
  decide

/-! ## Socket addresses -/

inductive SocketAddr where
  | v4 (ip : Ipv4Addr) (port : ℕ)
  | v6 (ip : Ipv6Addr) (port flowinfo scopeId : ℕ)
deriving DecidableEq, Repr

namespace SocketAddr

/-- `SocketAddr::new`. -/
def new : IpAddr → ℕ → SocketAddr
  | .v4 ip, port => .v4 ip port
  | .v6 ip, port => .v6 ip port 0 0

def ip : SocketAddr → IpAddr
  | v4 ip _ => .v4 ip
  | v6 ip _ _ _ => .v6 ip

def port : SocketAddr → ℕ
  | v4 _ port => port
  | v6 _ port _ _ => port

/-- The numbers that the derived order compares. -/
def key : SocketAddr → List ℕ
  | v4 ip port => 0 :: ip.key ++ [port]
  | v6 ip port flowinfo scopeId => 1 :: ip.key ++ [port, flowinfo, scopeId]

lemma key_injective : Function.Injective key := by
  intro x y h
  cases x <;> cases y
  · simpa [key, Ipv4Addr.key, Ipv4Addr.ext_iff, UInt8.toNat_inj, and_assoc] using h
  · simp [key] at h
  · simp [key] at h
  · simpa [key, Ipv6Addr.key, Ipv6Addr.segments, Ipv6Addr.ext_iff, UInt16.toNat_inj,
      and_assoc] using h

instance : LinearOrder SocketAddr := LinearOrder.lift' key key_injective

end SocketAddr

end TouchBar.Rust.Net
