import Mathlib
import TouchBar.Lib.Blocks
import TouchBar.Supervisor.Http

/-!
# Addresses outside the public network

The classes of addresses that a plugin without access to private networks must not
reach, as the blocks of the address registries, and which of them the cascade of
comparisons in `addressAllowed` keeps out.
-/

namespace TouchBar.Rust.Net

open TouchBar.Lib

/-- The address begins with the first `length` bits of `base`. -/
def Ipv4Addr.InBlock (base : Ipv4Addr) (length : ℕ) (address : Ipv4Addr) : Prop :=
  Begins 8 length base.key address.key

def Ipv6Addr.InBlock (base : Ipv6Addr) (length : ℕ) (address : Ipv6Addr) : Prop :=
  Begins 16 length base.key address.key

instance {base : Ipv4Addr} {length : ℕ} : DecidablePred (Ipv4Addr.InBlock base length) :=
  fun _ => inferInstanceAs (Decidable (Begins _ _ _ _))

instance {base : Ipv6Addr} {length : ℕ} : DecidablePred (Ipv6Addr.InBlock base length) :=
  fun _ => inferInstanceAs (Decidable (Begins _ _ _ _))

/-- The blocks of IPv4 that are not public. -/
inductive Ipv4Addr.Special : Ipv4Addr → ℕ → Prop
  | unspecified : Special ⟨0, 0, 0, 0⟩ 32
  | multicast : Special ⟨224, 0, 0, 0⟩ 4
  | reserved : Special ⟨240, 0, 0, 0⟩ 4
  | broadcast : Special ⟨255, 255, 255, 255⟩ 32
  | loopback : Special ⟨127, 0, 0, 0⟩ 8
  | privateA : Special ⟨10, 0, 0, 0⟩ 8
  | privateB : Special ⟨172, 16, 0, 0⟩ 12
  | privateC : Special ⟨192, 168, 0, 0⟩ 16
  | linkLocal : Special ⟨169, 254, 0, 0⟩ 16
  | carrierGradeNat : Special ⟨100, 64, 0, 0⟩ 10
  | documentation1 : Special ⟨192, 0, 2, 0⟩ 24
  | documentation2 : Special ⟨198, 51, 100, 0⟩ 24
  | documentation3 : Special ⟨203, 0, 113, 0⟩ 24
  | benchmarking : Special ⟨198, 18, 0, 0⟩ 15
  | ietfProtocol : Special ⟨192, 0, 0, 0⟩ 24

/-- The blocks of IPv6 that are not public. -/
inductive Ipv6Addr.Special : Ipv6Addr → ℕ → Prop
  | unspecified : Special ⟨0, 0, 0, 0, 0, 0, 0, 0⟩ 128
  | multicast : Special ⟨0xff00, 0, 0, 0, 0, 0, 0, 0⟩ 8
  | loopback : Special ⟨0, 0, 0, 0, 0, 0, 0, 1⟩ 128
  | uniqueLocal : Special ⟨0xfc00, 0, 0, 0, 0, 0, 0, 0⟩ 7
  | linkLocal : Special ⟨0xfe80, 0, 0, 0, 0, 0, 0, 0⟩ 10
  | siteLocal : Special ⟨0xfec0, 0, 0, 0, 0, 0, 0, 0⟩ 10
  | localNat64 : Special ⟨0x64, 0xff9b, 1, 0, 0, 0, 0, 0⟩ 48
  | documentation1 : Special ⟨0x2001, 0xdb8, 0, 0, 0, 0, 0, 0⟩ 32
  | documentation2 : Special ⟨0x3fff, 0, 0, 0, 0, 0, 0, 0⟩ 20
  | benchmarking : Special ⟨0x2001, 2, 0, 0, 0, 0, 0, 0⟩ 48
  | discardOnly : Special ⟨0x100, 0, 0, 0, 0, 0, 0, 0⟩ 64

def Ipv4Addr.Public (address : Ipv4Addr) : Prop :=
  ∀ base length, Special base length → ¬ InBlock base length address

/-- The IPv4 address in a mapped, compatible, NAT64 or 6to4 address. -/
inductive Ipv6Addr.Embeds : Ipv6Addr → Ipv4Addr → Prop
  | mapped (high low : UInt16) : Embeds ⟨0, 0, 0, 0, 0, 0xffff, high, low⟩ (.ofSegments high low)
  | compatible (high low : UInt16) : Embeds ⟨0, 0, 0, 0, 0, 0, high, low⟩ (.ofSegments high low)
  | nat64 (high low : UInt16) :
    Embeds ⟨0x64, 0xff9b, 0, 0, 0, 0, high, low⟩ (.ofSegments high low)
  | sixToFour (high low s₃ s₄ s₅ s₆ s₇ : UInt16) :
    Embeds ⟨0x2002, high, low, s₃, s₄, s₅, s₆, s₇⟩ (.ofSegments high low)

def Ipv6Addr.Public (address : Ipv6Addr) : Prop :=
  (∀ base length, Special base length → ¬ InBlock base length address) ∧
    ∀ embedded, Embeds address embedded → embedded.Public

def IpAddr.Public : IpAddr → Prop
  | .v4 address => address.Public
  | .v6 address => address.Public

end TouchBar.Rust.Net

namespace TouchBar.Supervisor

open TouchBar.Rust TouchBar.Rust.Net TouchBar.Lib TouchBar.Policy

lemma octet_lt (octet : UInt8) : octet.toNat < 256 := octet.toNat_lt

lemma segment_lt (segment : UInt16) : segment.toNat < 65536 := segment.toNat_lt

/-- No block of IPv4 that is not public lets an address through. -/
lemma ipv4Allowed_special {base address : Ipv4Addr} {length : ℕ}
    (hspecial : Ipv4Addr.Special base length) (hin : Ipv4Addr.InBlock base length address) :
    ipv4Allowed address false = false := by
  obtain ⟨a, b, c, d⟩ := address
  simp only [ipv4Allowed, Ipv4Addr.isUnspecified, Ipv4Addr.isMulticast, Ipv4Addr.isPrivate,
    Ipv4Addr.isLoopback, Ipv4Addr.isLinkLocal, Ipv4Addr.broadcast, Ipv4Addr.mk.injEq,
    UInt8.le_iff_toNat_le, ← UInt8.toNat_inj, beq_eq_decide, UInt8.reduceToNat, Bool.or_false,
    Bool.and_eq_false_iff, Bool.not_eq_false', Bool.or_eq_true, Bool.and_eq_true, decide_eq_true_eq]
  cases hspecial <;>
  simp [Ipv4Addr.InBlock, Ipv4Addr.key, begins_cons_of_le, begins_cons_of_ge, octet_lt] at hin
  case multicast =>
    have hrange : 224 ≤ a.toNat ∧ a.toNat ≤ 239 := by omega
    simp [hrange]
  case reserved =>
    have hrange : 240 ≤ a.toNat := by omega
    simp [hrange]
  case privateB =>
    have hrange : 16 ≤ b.toNat ∧ b.toNat ≤ 31 := by omega
    simp [hin, hrange]
  case carrierGradeNat =>
    have hrange : 64 ≤ b.toNat ∧ b.toNat ≤ 127 := by omega
    simp [hin, hrange]
  case benchmarking =>
    have hrange : b.toNat = 18 ∨ b.toNat = 19 := by omega
    simp [hin, hrange]
  all_goals simp [hin]

lemma segment_masked (segment : UInt16) {mask value : UInt16} {m k c : ℕ} (hbits : m + k = 16)
    (hmask : mask.toNat = (2 ^ m - 1) <<< k) (hvalue : value.toNat = c <<< k) :
    (segment &&& mask == value) = decide (segment.toNat / 2 ^ k = c) := by
  have hlt : segment.toNat < 2 ^ (m + k) := by
    rw [hbits]
    exact segment.toNat_lt
  rw [beq_eq_decide, decide_eq_decide, ← UInt16.toNat_inj, UInt16.toNat_and, hmask, hvalue]
  exact and_mask_eq_iff hlt

section

variable (s₀ s₁ s₂ s₃ s₄ s₅ s₆ s₇ : UInt16)

/-- What `ipv6_allowed` refuses without access to private networks once no form with an
embedded address is left, with the masks read as quotients. -/
def nonPublicSegments : Prop :=
  s₀.toNat / 2 ^ 9 = 0x7e ∨ s₀.toNat / 2 ^ 6 = 0x3fa ∨ s₀.toNat / 2 ^ 6 = 0x3fb ∨
    (s₀.toNat = 0x64 ∧ s₁.toNat = 0xff9b ∧ s₂.toNat = 1) ∨
    (s₀.toNat = 0x2001 ∧ s₁.toNat = 0xdb8) ∨
    (s₀.toNat = 0x100 ∧ s₁.toNat = 0 ∧ s₂.toNat = 0 ∧ s₃.toNat = 0 ∧ s₄.toNat = 0 ∧
      s₅.toNat = 0 ∧ s₆.toNat = 0 ∧ s₇.toNat = 0)

instance : Decidable (nonPublicSegments s₀ s₁ s₂ s₃ s₄ s₅ s₆ s₇) :=
  inferInstanceAs (Decidable (_ ∨ _))

lemma ipv6Allowed_eq :
    ipv6Allowed ⟨s₀, s₁, s₂, s₃, s₄, s₅, s₆, s₇⟩ false =
      if s₀.toNat / 2 ^ 8 = 0xff then false
      else if s₀.toNat = 0 ∧ s₁.toNat = 0 ∧ s₂.toNat = 0 ∧ s₃.toNat = 0 ∧ s₄.toNat = 0 ∧
          s₅.toNat = 0 then
        ipv4Allowed (.ofSegments s₆ s₇) false
      else if s₀.toNat = 0x64 ∧ s₁.toNat = 0xff9b ∧ s₂.toNat = 0 ∧ s₃.toNat = 0 ∧
          s₄.toNat = 0 ∧ s₅.toNat = 0 then
        ipv4Allowed (.ofSegments s₆ s₇) false
      else if s₀.toNat = 0x2002 then ipv4Allowed (.ofSegments s₁ s₂) false
      else !decide (nonPublicSegments s₀ s₁ s₂ s₃ s₄ s₅ s₆ s₇) := by
  have hzero : s₆.toNat = 0 → ipv4Allowed (.ofSegments s₆ s₇) false = false := by
    intro h
    rw [show s₆ = 0 from UInt16.toNat_inj.mp h]
    simp [ipv4Allowed, Ipv4Addr.ofSegments]
  simp only [ipv6Allowed, Ipv6Addr.isUnspecified, Ipv6Addr.isMulticast, Ipv6Addr.isLoopback,
    Ipv6Addr.segments, Ipv6Addr.mk.injEq, List.take, List.drop, List.all_cons, List.all_nil,
    @segment_masked s₀ 0xff00 0xff00 8 8 0xff rfl rfl rfl,
    @segment_masked s₀ 0xfe00 0xfc00 7 9 0x7e rfl rfl rfl,
    @segment_masked s₀ 0xffc0 0xfe80 10 6 0x3fa rfl rfl rfl,
    @segment_masked s₀ 0xffc0 0xfec0 10 6 0x3fb rfl rfl rfl, ← UInt16.toNat_inj, beq_eq_decide,
    UInt16.reduceToNat, Bool.or_false, Bool.and_true, Bool.or_eq_true, Bool.and_eq_true,
    decide_eq_true_eq]
  by_cases hsix : s₀.toNat = 0 ∧ s₁.toNat = 0 ∧ s₂.toNat = 0 ∧ s₃.toNat = 0 ∧ s₄.toNat = 0 ∧
      s₅.toNat = 0
  · -- the unspecified address and the loopback are refused by the embedded one as well
    obtain ⟨h₀, h₁, h₂, h₃, h₄, h₅⟩ := hsix
    simp only [h₀, h₁, h₂, h₃, h₄, h₅, true_and, Nat.zero_div, if_true]
    split_ifs <;> simp_all
  · have hne : ∀ p q : Prop, ¬ (s₀.toNat = 0 ∧ s₁.toNat = 0 ∧ s₂.toNat = 0 ∧ s₃.toNat = 0 ∧
        s₄.toNat = 0 ∧ s₅.toNat = 0 ∧ p ∧ q) := by
      rintro p q ⟨h₀, h₁, h₂, h₃, h₄, h₅, -⟩
      exact hsix ⟨h₀, h₁, h₂, h₃, h₄, h₅⟩
    simp only [hne, hsix, false_or, if_false, decide_false, Bool.false_or, and_assoc]
    split_ifs <;> try rfl
    refine congrArg _ (Bool.eq_iff_iff.mpr ?_)
    rw [decide_eq_true_iff]
    simp [nonPublicSegments, or_assoc, and_assoc]

end

/-- The blocks that are not public and yet let addresses through: what is missing of the
cascade. -/
def Missed (address : Ipv6Addr) : Prop :=
  (Ipv6Addr.InBlock ⟨0x100, 0, 0, 0, 0, 0, 0, 0⟩ 64 address ∧
    address ≠ ⟨0x100, 0, 0, 0, 0, 0, 0, 0⟩) ∨
  Ipv6Addr.InBlock ⟨0x2001, 2, 0, 0, 0, 0, 0, 0⟩ 48 address ∨
  Ipv6Addr.InBlock ⟨0x3fff, 0, 0, 0, 0, 0, 0, 0⟩ 20 address

lemma ipv6Allowed_missed {address : Ipv6Addr} (h : Missed address) :
    ipv6Allowed address false = true := by
  obtain ⟨s₀, s₁, s₂, s₃, s₄, s₅, s₆, s₇⟩ := address
  rw [ipv6Allowed_eq]
  simp [Missed, Ipv6Addr.InBlock, Ipv6Addr.key, Ipv6Addr.segments, begins_cons_of_le,
    begins_cons_of_ge, segment_lt, ← UInt16.toNat_inj] at h
  rcases h with ⟨⟨h₀, h₁, h₂, h₃⟩, hne⟩ | ⟨h₀, h₁, h₂⟩ | ⟨h₀, h₁⟩
  · have hrest : ¬ (s₄.toNat = 0 ∧ s₅.toNat = 0 ∧ s₆.toNat = 0 ∧ s₇.toNat = 0) := by
      rintro ⟨h₄, h₅, h₆, h₇⟩
      exact hne h₀ h₁ h₂ h₃ h₄ h₅ h₆ h₇
    simpa [h₀, h₁, h₂, h₃, nonPublicSegments, imp_iff_not_or] using hrest
  · simp [h₀, h₁, h₂, nonPublicSegments]
  · simp [h₀, nonPublicSegments]

/-- A block of one address. -/
lemma eq_of_inBlock_full {base address : Ipv6Addr} (h : Ipv6Addr.InBlock base 128 address) :
    address = base := by
  obtain ⟨s₀, s₁, s₂, s₃, s₄, s₅, s₆, s₇⟩ := address
  obtain ⟨b₀, b₁, b₂, b₃, b₄, b₅, b₆, b₇⟩ := base
  simp [Ipv6Addr.InBlock, Ipv6Addr.key, Ipv6Addr.segments, begins_cons_of_le, segment_lt,
    UInt16.toNat_inj] at h
  obtain ⟨rfl, rfl, rfl, rfl, rfl, rfl, rfl, rfl, -⟩ := h
  rfl

lemma ipv6Allowed_special {base address : Ipv6Addr} {length : ℕ}
    (hspecial : Ipv6Addr.Special base length) (hin : Ipv6Addr.InBlock base length address)
    (hcovered : ¬ Missed address) : ipv6Allowed address false = false := by
  cases hspecial
  case unspecified =>
    rw [eq_of_inBlock_full hin]
    decide
  case loopback =>
    rw [eq_of_inBlock_full hin]
    decide
  case documentation2 => exact absurd (.inr (.inr hin)) hcovered
  case benchmarking => exact absurd (.inr (.inl hin)) hcovered
  case discardOnly =>
    have heq : address = ⟨0x100, 0, 0, 0, 0, 0, 0, 0⟩ :=
      not_not.mp fun hne => hcovered (.inl ⟨hin, hne⟩)
    rw [heq]
    decide
  all_goals
    obtain ⟨s₀, s₁, s₂, s₃, s₄, s₅, s₆, s₇⟩ := address
    rw [ipv6Allowed_eq]
    simp [Ipv6Addr.InBlock, Ipv6Addr.key, Ipv6Addr.segments, begins_cons_of_le,
      begins_cons_of_ge, segment_lt] at hin
  case multicast => simp [hin]
  case uniqueLocal =>
    have hne : s₀.toNat ≠ 0 ∧ s₀.toNat ≠ 0x64 ∧ s₀.toNat ≠ 0x2002 := by omega
    simp [hin, hne, nonPublicSegments]
  case linkLocal =>
    have hne : s₀.toNat ≠ 0 ∧ s₀.toNat ≠ 0x64 ∧ s₀.toNat ≠ 0x2002 := by omega
    simp [hin, hne, nonPublicSegments]
  case siteLocal =>
    have hne : s₀.toNat ≠ 0 ∧ s₀.toNat ≠ 0x64 ∧ s₀.toNat ≠ 0x2002 := by omega
    simp [hin, hne, nonPublicSegments]
  all_goals simp [hin, nonPublicSegments]

lemma toIpv4Mapped_eq_some_iff {address : Ipv6Addr} {embedded : Ipv4Addr} :
    address.toIpv4Mapped = some embedded ↔ ∃ high low,
      address = ⟨0, 0, 0, 0, 0, 0xffff, high, low⟩ ∧ embedded = .ofSegments high low := by
  obtain ⟨s₀, s₁, s₂, s₃, s₄, s₅, s₆, s₇⟩ := address
  simp only [Ipv6Addr.toIpv4Mapped, Ipv6Addr.segments]
  constructor
  · intro h
    obtain ⟨hmapped, heq⟩ := Option.ite_none_right_eq_some.mp h
    simp only [List.take, List.all_cons, List.all_nil, Bool.and_eq_true, beq_iff_eq] at hmapped
    obtain ⟨⟨rfl, rfl, rfl, rfl, rfl, -⟩, rfl⟩ := hmapped
    exact ⟨s₆, s₇, rfl, (Option.some.inj heq).symm⟩
  · rintro ⟨high, low, heq, rfl⟩
    cases heq
    rfl

/-- The mapped addresses lie in no other block. -/
lemma not_inBlock_of_mapped {base : Ipv6Addr} {length : ℕ} {high low : UInt16}
    (hspecial : Ipv6Addr.Special base length) :
    ¬ Ipv6Addr.InBlock base length ⟨0, 0, 0, 0, 0, 0xffff, high, low⟩ := by
  cases hspecial <;>
  simp [Ipv6Addr.InBlock, Ipv6Addr.key, Ipv6Addr.segments, begins_cons_of_le,
    begins_cons_of_ge, segment_lt]

lemma not_missed_of_mapped {high low : UInt16} :
    ¬ Missed ⟨0, 0, 0, 0, 0, 0xffff, high, low⟩ := by
  rintro (⟨hin, -⟩ | hin | hin)
  · exact not_inBlock_of_mapped .discardOnly hin
  · exact not_inBlock_of_mapped .benchmarking hin
  · exact not_inBlock_of_mapped .documentation2 hin

lemma public_of_ipv4Allowed {address : Ipv4Addr} (h : ipv4Allowed address false = true) :
    address.Public := by
  intro base length hspecial hin
  rw [ipv4Allowed_special hspecial hin] at h
  cases h

lemma embeds_allowed {address : Ipv6Addr} {embedded : Ipv4Addr}
    (h : Ipv6Addr.Embeds address embedded) (hallowed : addressAllowed (.v6 address) false = true) :
    ipv4Allowed embedded false = true := by
  revert hallowed
  cases h with
  | mapped high low => simp [addressAllowed, Ipv6Addr.toIpv4Mapped, Ipv6Addr.segments]
  | compatible high low =>
    simp [addressAllowed, Ipv6Addr.toIpv4Mapped, Ipv6Addr.segments, ipv6Allowed_eq]
  | nat64 high low =>
    simp [addressAllowed, Ipv6Addr.toIpv4Mapped, Ipv6Addr.segments, ipv6Allowed_eq]
  | sixToFour high low s₃ s₄ s₅ s₆ s₇ =>
    simp [addressAllowed, Ipv6Addr.toIpv4Mapped, Ipv6Addr.segments, ipv6Allowed_eq]

/-- The blocks that `address_allowed` misses. -/
def missed : IpAddr → Prop
  | .v4 _ => False
  | .v6 address => Missed address

lemma public_of_addressAllowed {address : IpAddr} (hallowed : addressAllowed address false = true)
    (hcovered : ¬ missed address) : address.Public := by
  cases address with
  | v4 address => exact public_of_ipv4Allowed hallowed
  | v6 address =>
    refine ⟨fun base length hspecial hin => ?_, fun embedded hembeds =>
      public_of_ipv4Allowed (embeds_allowed hembeds hallowed)⟩
    rw [addressAllowed] at hallowed
    cases hmapped : address.toIpv4Mapped with
    | some mapped =>
      obtain ⟨high, low, rfl, -⟩ := toIpv4Mapped_eq_some_iff.mp hmapped
      exact not_inBlock_of_mapped hspecial hin
    | none =>
      rw [hmapped] at hallowed
      dsimp only at hallowed
      rw [ipv6Allowed_special hspecial hin hcovered] at hallowed
      cases hallowed

/-- Without access to private networks the accepted addresses are public but for those in
the blocks that the cascade misses; and that access only adds addresses. -/
theorem addressAllowed_public_iff (address : IpAddr) :
    ((addressAllowed address false = true → address.Public) ∧
      ∀ new old, (new = true → old = true) → addressAllowed address new = true →
        addressAllowed address old = true) ↔
      ¬ missed address := by
  constructor
  · rintro ⟨hpublic, -⟩ hmissed
    cases address with
    | v4 address => exact hmissed
    | v6 address =>
      have hallowed : addressAllowed (.v6 address) false = true := by
        rw [addressAllowed]
        cases hmapped : address.toIpv4Mapped with
        | some mapped =>
          obtain ⟨high, low, rfl, -⟩ := toIpv4Mapped_eq_some_iff.mp hmapped
          exact absurd hmissed not_missed_of_mapped
        | none => exact ipv6Allowed_missed hmissed
      obtain ⟨hspecial, -⟩ := hpublic hallowed
      rcases hmissed with ⟨hin, -⟩ | hin | hin
      · exact hspecial _ _ .discardOnly hin
      · exact hspecial _ _ .benchmarking hin
      · exact hspecial _ _ .documentation2 hin
  · intro hcovered
    refine ⟨fun hallowed => public_of_addressAllowed hallowed hcovered, ?_⟩
    intro new old hle hallowed
    exact addressAllowed_mono (boolAuthoritySubset_iff.mpr hle) hallowed

/-- `100::1` is in the discard-only block. -/
theorem addressAllowed_discardOnly :
    addressAllowed (.v6 ⟨0x100, 0, 0, 0, 0, 0, 0, 1⟩) false = true ∧
      ¬ (IpAddr.v6 ⟨0x100, 0, 0, 0, 0, 0, 0, 1⟩).Public := by
  refine ⟨by decide, fun hpublic => ?_⟩
  exact hpublic.1 _ _ .discardOnly (by decide)

end TouchBar.Supervisor
