import Bk7258.Lib.Bits
import Bk7258.Otp.Driver

/-!
# The permissions of the words of an item

`bk_otp_apb_write_permission` and `bk_otp_ahb_write_permission` take a word for every four bytes of the size of an item,
which may start within a word. The registers hold a permission of four bits for each word of the APB memory, and for
each 32 words of the AHB memory.
-/

namespace Bk7258

structure OtpRegs where
  otpLckwd : Nat → BitVec 32
  rolck : Nat → BitVec 32
  otpMask : Nat → BitVec 32
  cdeMask : Nat → BitVec 32

namespace OtpRegs
variable (r : OtpRegs) (location : Nat) (value : BitVec 32)

/-! ## The registers -/

def writeOtpPermission : OtpRegs :=
  { r with otpLckwd := Bits.orWord r.otpLckwd (location / 8) (value <<< (location % 8 * 4)) }

def readOtpPermission : BitVec 32 := r.otpLckwd (location / 8) >>> (location % 8 * 4) &&& 0xF#32

def writeOtp2Permission : OtpRegs :=
  { r with rolck := Bits.orWord r.rolck (location / 256) (value <<< (location % 256 / 32 * 4)) }

def readOtp2Permission : BitVec 32 := r.rolck (location / 256) >>> (location % 256 / 32 * 4) &&& 0xF#32

def writeOtpMask : OtpRegs :=
  { r with otpMask := Bits.orWord r.otpMask (location / 128) (value <<< (location % 128 / 8 * 2)) }

def readOtpMask : BitVec 32 := r.otpMask (location / 128) >>> (location % 128 / 8 * 2) &&& 0x3#32

def writeOtp2Mask : OtpRegs :=
  { r with cdeMask := Bits.orWord r.cdeMask (location / 512) (value <<< (location % 512 / 32 * 2)) }

def readOtp2Mask : BitVec 32 := r.cdeMask (location / 512) >>> (location % 512 / 32 * 2) &&& 0x3#32

def permission : OtpBank → Nat → BitVec 32
  | .apb => r.readOtpPermission
  | .ahb => r.readOtp2Permission

end OtpRegs

/-- A hardware that keeps its permissions and masks in the registers of `otp_ll.h`; the rest of it is arbitrary. -/
def OtpHw.withRegs {σ : Type} (hw : OtpHw σ) : OtpHw (OtpRegs × σ) where
  active s := ((s.1, (hw.active s.2).1), (hw.active s.2).2)
  readPermission
    | .apb, location, s => (s, (s.1.readOtpPermission location).toNat)
    | .ahb, location, s => (s, (s.1.readOtp2Permission location).toNat)
  readMask
    | .apb, location, s => (s, (s.1.readOtpMask location).toNat)
    | .ahb, location, s => (s, (s.1.readOtp2Mask location).toNat)
  writePermission
    | .apb, location, value, s => (s.1.writeOtpPermission location (BitVec.ofNat 32 value), s.2)
    | .ahb, location, value, s => (s.1.writeOtp2Permission location (BitVec.ofNat 32 value), s.2)
  writeMask
    | .apb, location, value, s => (s.1.writeOtpMask location (BitVec.ofNat 32 value), s.2)
    | .ahb, location, value, s => (s.1.writeOtp2Mask location (BitVec.ofNat 32 value), s.2)
  readOtp b location s := ((s.1, (hw.readOtp b location s.2).1), (hw.readOtp b location s.2).2)
  writeOtp b location value s := (s.1, hw.writeOtp b location value s.2)
  readRandomNumber s := ((s.1, (hw.readRandomNumber s.2).1), (hw.readRandomNumber s.2).2)
  readTmlck s := ((s.1, (hw.readTmlck s.2).1), (hw.readTmlck s.2).2)
  readShfwen s := ((s.1, (hw.readShfwen s.2).1), (hw.readShfwen s.2).2)
  readShfren s := ((s.1, (hw.readShfren s.2).1), (hw.readShfren s.2).2)
  factory part s := (hw.factory part s.2).map fun r => ((s.1, r.1), r.2)
  past := hw.past

/-! ## Fields -/

def OtpBank.unit : OtpBank → Nat → Nat
  | .apb, location => location
  | .ahb, location => location / 32

namespace OtpRegs
variable {r : OtpRegs} {location v : Nat} {value : BitVec 32}

theorem readOtpPermission_eq : r.readOtpPermission location = Bits.field 4 8 r.otpLckwd location := rfl

theorem writeOtpPermission_eq :
    (r.writeOtpPermission location value).otpLckwd = Bits.orField 4 8 r.otpLckwd location value := rfl

theorem readOtp2Permission_eq : r.readOtp2Permission location = Bits.field 4 8 r.rolck (location / 32) := by
  unfold readOtp2Permission Bits.field
  rw [Nat.div_div_eq_div_mul, ← Nat.mod_mul_right_div_self]
  rfl

theorem writeOtp2Permission_eq :
    (r.writeOtp2Permission location value).rolck = Bits.orField 4 8 r.rolck (location / 32) value := by
  unfold writeOtp2Permission Bits.orField
  rw [Nat.div_div_eq_div_mul, ← Nat.mod_mul_right_div_self]

theorem permission_write (b : OtpBank) (hvalue : value &&& Bits.low 32 4 = value) :
    (match b with
      | .apb => r.writeOtpPermission location value
      | .ahb => r.writeOtp2Permission location value).permission b v =
      if b.unit v = b.unit location then r.permission b v ||| value else r.permission b v := by
  cases b with
  | apb =>
    simp only [permission, readOtpPermission_eq, writeOtpPermission_eq]
    exact Bits.field_orField (by decide) (by decide) hvalue
  | ahb =>
    simp only [permission, readOtp2Permission_eq, writeOtp2Permission_eq]
    exact Bits.field_orField (by decide) (by decide) hvalue

end OtpRegs

/-! ## The loop over the words -/

/-- Word `v` shares its field with a word that the loop writes: one of those from `location` on, as many as `size`
has. -/
def Covered (unit : Nat → Nat) (location size v : Nat) : Prop :=
  ∃ l, location ≤ l ∧ l < location + (size + 3) / 4 ∧ unit v = unit l

theorem not_covered_zero {unit : Nat → Nat} {location v : Nat} : ¬Covered unit location 0 v := by
  rintro ⟨l, hle, hlt, -⟩
  omega

theorem covered_succ {unit : Nat → Nat} {location size v : Nat} (hsize : size > 0) :
    Covered unit location size v ↔ unit v = unit location ∨ Covered unit (location + 1) (size - 4) v := by
  have hcnt : (size + 3) / 4 = (size - 4 + 3) / 4 + 1 := by omega
  constructor
  · rintro ⟨l, hle, hlt, hl⟩
    rcases Nat.eq_or_lt_of_le hle with rfl | hgt
    · exact .inl hl
    · exact .inr ⟨l, hgt, by omega, hl⟩
  · rintro (hl | ⟨l, hle, hlt, hl⟩)
    · exact ⟨location, Nat.le_refl _, by omega, hl⟩
    · exact ⟨l, by omega, by omega, hl⟩

theorem forWords_permission {σ : Type} {write : Nat → σ → σ} (permission : σ → Nat → BitVec 32) {unit : Nat → Nat}
    {value : BitVec 32} (hwrite : ∀ s l v, permission (write l s) v =
      if unit v = unit l then permission s v ||| value else permission s v)
    {fuel location size : Nat} (hfuel : size ≤ fuel) (s : σ) (v : Nat) :
    (Covered unit location size v → permission (OtpHw.forWords write fuel location size s) v = permission s
      v ||| value) ∧
      (¬Covered unit location size v → permission (OtpHw.forWords write fuel location size s) v = permission s v) := by
  induction fuel generalizing location size s with
  | zero =>
    obtain rfl := Nat.le_zero.1 hfuel
    exact ⟨fun h => absurd h not_covered_zero, fun _ => rfl⟩
  | succ fuel ih =>
    unfold OtpHw.forWords
    by_cases hz : size > 0
    case neg =>
      obtain rfl := Nat.eq_zero_of_not_pos hz
      exact ⟨fun h => absurd h not_covered_zero, fun _ => rfl⟩
    rw [if_pos hz, covered_succ hz]
    obtain ⟨hin, hout⟩ := @ih (location + 1) (size - 4) (by omega) (write location s)
    rw [hwrite] at hin hout
    by_cases hl : unit v = unit location
    · -- a field that is written more than once keeps the bits of the first time
      rw [if_pos hl] at hin hout
      refine ⟨fun _ => ?_, fun h => absurd (.inl hl) h⟩
      by_cases hrest : Covered unit (location + 1) (size - 4) v
      · rw [hin hrest, BitVec.or_assoc, BitVec.or_self]
      · exact hout hrest
    · rw [if_neg hl] at hin hout
      refine ⟨fun h => hin (h.resolve_left hl), fun h => hout fun hrest => h (.inr hrest)⟩

/-! ## The words of an item -/

def OtpItem.InWord (it : OtpItem) (v : Nat) : Prop := ∃ x, it.offset ≤ x ∧ x < it.offset + it.allocatedSize ∧ x / 4 = v

def OtpItem.Fits (it : OtpItem) : Prop := it.allocatedSize = 0 ∨ it.offset % 4 + (it.allocatedSize - 1) % 4 < 4

def OtpItem.WholeFields (it : OtpItem) : Prop :=
  it.allocatedSize = 0 ∨ it.offset / 4 % 32 = 0 ∧ (it.offset + it.allocatedSize + 3) / 4 % 32 = 0

namespace OtpItem
variable {it : OtpItem} {v : Nat}

theorem covered_apb (h : it.Fits) : Covered OtpBank.apb.unit (it.offset / 4) it.allocatedSize v ↔ it.InWord v := by
  unfold Fits at h
  constructor
  · rintro ⟨l, hle, hlt, hl⟩
    change v = l at hl
    exact ⟨max it.offset (4 * v), by omega, by omega, by omega⟩
  · rintro ⟨x, hle, hlt, rfl⟩
    exact ⟨x / 4, by omega, by omega, rfl⟩

theorem covered_ahb (h : it.WholeFields) :
    Covered OtpBank.ahb.unit (it.offset / 4) it.allocatedSize v ↔ it.InWord v := by
  unfold WholeFields at h
  constructor
  · rintro ⟨l, hle, hlt, hl⟩
    change v / 32 = l / 32 at hl
    exact ⟨max it.offset (4 * v), by omega, by omega, by omega⟩
  · rintro ⟨x, hle, hlt, rfl⟩
    -- the first word of the field
    refine ⟨32 * (x / 4 / 32), by omega, by omega, ?_⟩
    show x / 4 / 32 = 32 * (x / 4 / 32) / 32
    omega

theorem fits_of_covered (h : ∀ v, Covered OtpBank.apb.unit (it.offset / 4) it.allocatedSize v ↔
    it.InWord v) : it.Fits := by
  unfold Fits
  by_contra hnot
  -- the word of the last byte
  obtain ⟨l, -, hlt, hl⟩ := (h _).2 ⟨it.offset + it.allocatedSize - 1, by omega, by omega, rfl⟩
  change (it.offset + it.allocatedSize - 1) / 4 = l at hl
  omega

theorem wholeFields_of_covered (h : ∀ v, Covered OtpBank.ahb.unit (it.offset / 4) it.allocatedSize v ↔ it.InWord v) :
    it.WholeFields := by
  by_cases hz : it.allocatedSize = 0
  · exact .inl hz
  -- the first word of the first field, and the last word of the last one
  obtain ⟨x, hx, -, hxv⟩ := (h (32 * (it.offset / 4 / 32))).1 ⟨it.offset / 4, by omega, by omega, by
    show 32 * (it.offset / 4 / 32) / 32 = it.offset / 4 / 32
    omega⟩
  obtain ⟨l, hle, hlt, hl⟩ := (h _).2 ⟨it.offset + it.allocatedSize - 1, by omega, by omega, rfl⟩
  change (it.offset + it.allocatedSize - 1) / 4 / 32 = l / 32 at hl
  obtain ⟨y, -, hy, hyv⟩ := (h (l / 32 * 32 + 31)).1 ⟨l, hle, hlt, by
    show (l / 32 * 32 + 31) / 32 = l / 32
    omega⟩
  exact .inr ⟨by omega, by omega⟩

end OtpItem

def Programmed (b : OtpBank) (it : OtpItem) (p : Nat) (before after : OtpRegs) : Prop :=
  ∀ v, (it.InWord v → after.permission b v = before.permission b v ||| BitVec.ofNat 32 p) ∧
    (¬it.InWord v → after.permission b v = before.permission b v)

def OtpRegs.blank : OtpRegs := ⟨fun _ => 0, fun _ => 0, fun _ => 0, fun _ => 0⟩

section
variable {σ : Type} {hw : OtpHw σ} {cfg : OtpCfg} {d : OtpDrv (OtpRegs × σ)} {b : OtpBank} {item p : Nat} {it : OtpItem}
  {allowed : Bool}

theorem permission_otpWriteWords (hit : (cfg.table b)[item]? = some it)
    (hp : allowed = true → BitVec.ofNat 32 p &&& Bits.low 32 4 = BitVec.ofNat 32 p)
    (hok : (hw.withRegs.otpWriteWords cfg d b item allowed fun l => hw.withRegs.writePermission b l p).2 = .common .ok)
    (v : Nat) :
    let after := (hw.withRegs.otpWriteWords cfg d b item allowed fun l => hw.withRegs.writePermission b l p).1.hw.1
    (Covered b.unit (it.offset / 4) it.allocatedSize v →
        after.permission b v = d.hw.1.permission b v ||| BitVec.ofNat 32 p) ∧
      (¬Covered b.unit (it.offset / 4) it.allocatedSize v → after.permission b v = d.hw.1.permission b v) := by
  obtain ⟨hallowed, he⟩ := OtpHw.otpWriteWords_ok hit hok
  rw [he]
  have hwrite : ∀ (s : OtpRegs × σ) (l v : Nat), (hw.withRegs.writePermission b l p s).1.permission b v =
      if b.unit v = b.unit l then s.1.permission b v ||| BitVec.ofNat 32 p else s.1.permission b v := by
    intro s l v
    rw [← OtpRegs.permission_write b (hp hallowed)]
    -- each memory has its own registers
    cases b <;> rfl
  exact forWords_permission (fun s : OtpRegs × σ => s.1.permission b) hwrite (Nat.le_refl _) _ v

/-- When no permission is set before, it shows for every word whether it has been programmed. -/
theorem programmed_iff (hit : (cfg.table b)[item]? = some it)
    (hp : allowed = true → BitVec.ofNat 32 p &&& Bits.low 32 4 = BitVec.ofNat 32 p ∧ BitVec.ofNat 32 p ≠ 0) :
    (∀ (σ : Type) (hw : OtpHw σ) (d : OtpDrv (OtpRegs × σ)),
      (hw.withRegs.otpWriteWords cfg d b item allowed fun l => hw.withRegs.writePermission b l p).2 = .common .ok →
      Programmed b it p d.hw.1
        (hw.withRegs.otpWriteWords cfg d b item allowed fun l => hw.withRegs.writePermission b l p).1.hw.1) ↔
    (allowed = true → ∀ v, Covered b.unit (it.offset / 4) it.allocatedSize v ↔ it.InWord v) := by
  constructor
  · rintro h rfl v
    have hok : (OtpHw.unwritable.withRegs.otpWriteWords cfg ⟨none, .blank, ()⟩ b item true fun l =>
        OtpHw.unwritable.withRegs.writePermission b l p).2 = .common .ok := by
      unfold OtpHw.otpWriteWords
      rw [hit]
      rfl
    obtain ⟨hin, hout⟩ := permission_otpWriteWords hit (fun hp' => (hp hp').1) hok v
    obtain ⟨hword, hother⟩ := h Unit OtpHw.unwritable ⟨none, .blank, ()⟩ hok v
    have hblank : OtpRegs.blank.permission b v = 0#32 := by
      cases b <;> simp [OtpRegs.permission, OtpRegs.readOtpPermission, OtpRegs.readOtp2Permission, OtpRegs.blank]
    have hne : ¬OtpRegs.blank.permission b v = OtpRegs.blank.permission b v ||| BitVec.ofNat 32 p := by
      rw [hblank, BitVec.zero_or]
      exact fun he => (hp rfl).2 he.symm
    constructor
    · intro hcov
      by_contra hnot
      exact hne ((hother hnot).symm.trans (hin hcov))
    · intro hw
      by_contra hnot
      exact hne ((hout hnot).symm.trans (hword hw))
  · intro h σ hw d hok v
    rw [← h (OtpHw.otpWriteWords_ok hit hok).1 v]
    exact permission_otpWriteWords hit (fun hp' => (hp hp').1) hok v

end

/-- After a call that is accepted the words of the item have been programmed, and no others, if and only if the bytes of
the item lie in as many words as the size has, and in the AHB memory if and only if they are whole fields. -/
theorem otp_write_permission_words (cfg : OtpCfg) (item p : Nat) (it : OtpItem) :
    ((cfg.table .apb)[item]? = some it →
      ((∀ (σ : Type) (hw : OtpHw σ) d, (hw.withRegs.bkOtpApbWritePermission cfg d item p).2 = .common .ok →
        Programmed .apb it p d.hw.1 (hw.withRegs.bkOtpApbWritePermission cfg d item p).1.hw.1) ↔
      (p = otpReadOnly ∨ p = otpNoAccess → it.Fits))) ∧
    ((cfg.table .ahb)[item]? = some it →
      ((∀ (σ : Type) (hw : OtpHw σ) d, (hw.withRegs.bkOtpAhbWritePermission cfg d item p).2 = .common .ok →
        Programmed .ahb it p d.hw.1 (hw.withRegs.bkOtpAhbWritePermission cfg d item p).1.hw.1) ↔
      (p = otpReadOnly → it.WholeFields))) := by
  constructor
  · intro hit
    refine (programmed_iff hit fun hp => ?_).trans ?_
    · rcases of_decide_eq_true hp with rfl | rfl <;> decide
    · rw [decide_eq_true_iff]
      exact imp_congr_right fun _ => ⟨OtpItem.fits_of_covered, fun h v => OtpItem.covered_apb h⟩
  · intro hit
    refine (programmed_iff hit fun hp => ?_).trans ?_
    · rw [of_decide_eq_true hp]
      decide
    · rw [decide_eq_true_iff]
      exact imp_congr_right fun _ => ⟨OtpItem.wholeFields_of_covered, fun h v => OtpItem.covered_ahb h⟩

theorem otp_write_permission_words_two :
    let cfg : OtpCfg := ⟨fun | .apb => [⟨7, 5⟩] | .ahb => [⟨128, 128⟩], 0⟩
    let d : OtpDrv (OtpRegs × Unit) := ⟨none, .blank, ()⟩
    Programmed .apb ⟨7, 5⟩ 0xF .blank (OtpHw.unwritable.withRegs.bkOtpApbWritePermission cfg d 0 0xF).1.hw.1 ∧
      Programmed .ahb ⟨128, 128⟩ 3 .blank (OtpHw.unwritable.withRegs.bkOtpAhbWritePermission cfg d 0 3).1.hw.1 := by
  intro cfg d
  exact ⟨((otp_write_permission_words cfg 0 0xF ⟨7, 5⟩).1 rfl).2 (fun _ => .inr (by decide)) Unit OtpHw.unwritable d
      (by decide +kernel),
    ((otp_write_permission_words cfg 0 3 ⟨128, 128⟩).2 rfl).2 (fun _ => .inr (by decide)) Unit OtpHw.unwritable d
      (by decide +kernel)⟩

/-- Bytes 3 and 4 lie in words 0 and 1: word 1 stays writable. `OTP_PHY_PWR` is words 0 to 15: word 16 is locked too. -/
theorem otp_write_permission_misses :
    let cfg : OtpCfg := ⟨fun | .apb => [⟨2, 3⟩] | .ahb => [⟨64, 0⟩, ⟨256, 64⟩], 0⟩
    let d : OtpDrv (OtpRegs × Unit) := ⟨none, .blank, ()⟩
    let apb := OtpHw.unwritable.withRegs.bkOtpApbWritePermission cfg d 0 3
    let ahb := OtpHw.unwritable.withRegs.bkOtpAhbWritePermission cfg d 0 3
    (apb.2 = .common .ok ∧ apb.1.hw.1.permission .apb 0 = 3 ∧ apb.1.hw.1.permission .apb 1 = 0 ∧
      OtpItem.InWord ⟨2, 3⟩ 1) ∧
      ahb.2 = .common .ok ∧ ahb.1.hw.1.permission .ahb 16 = 3 ∧ ¬OtpItem.InWord ⟨64, 0⟩ 16 := by
  refine ⟨⟨by decide +kernel, by decide +kernel, by decide +kernel, 4, by decide, by decide, rfl⟩, by decide +kernel,
    by decide +kernel, ?_⟩
  rintro ⟨x, -, hlt, hx⟩
  change x < 0 + 64 at hlt
  omega

end Bk7258
