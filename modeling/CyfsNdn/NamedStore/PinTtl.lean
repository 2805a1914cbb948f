import CyfsNdn.NamedStore.GcInvariant
import CyfsNdn.NdnLib.SampleCrates

/-!
# How long a pin lasts

A pin with a TTL is stored with the time at which it expires, `now + ttl` as an `i64`
column.  It is active before this time and can be expired from then on, if the sum
fits the column.  A TTL that callers use for "almost forever" does not fit: the column
becomes negative and the pin is expired as soon as it is made, or the addition itself
overflows.
-/

namespace CyfsNdn
namespace NamedStore

open NdnLib Relational NamedLocalStoreDb

/-! ## The clock column -/

theorem asI64_of_lt {n : Nat} (h : n < 2 ^ 63) : asI64 n = n := by
  unfold asI64
  exact Int.bmod_eq_of_le (by omega) (by omega)

theorem asI64_of_ge {n : Nat} (h : 2 ^ 63 ≤ n) (h' : n < 2 ^ 64) : asI64 n = n - 2 ^ 64 := by
  unfold asI64
  rw [Int.bmod_def]
  omega

/-! ## What a TTL promises -/

/-- The pin of an owner on a key has not expired. -/
def PinActive (db : NamedLocalStoreDb) (time : Nat) (k owner : String) : Prop :=
  ∃ p ∈ db.pins.rows, p.key = (k, owner) ∧ p.active (asI64 time) = true

/-- The pin that was made at `now` for `secs` seconds lasts exactly so long.  Times are
those that fit the clock column. -/
structure TtlKept (crates : Crates) (db : NamedLocalStoreDb) (now secs : Nat)
    (objId : ObjId) (owner : String) (scope : PinScope) : Prop where
  /-- The addition does not overflow. -/
  fits : now + secs < 2 ^ 64
  active : ∀ time, now ≤ time → time < now + secs → time < 2 ^ 63 →
    let pinned := db.pin crates now objId owner scope (some secs)
    PinActive pinned time (objId.toString crates) owner ∧
      pinned.hasActivePinTx time (objId.toString crates) = true ∧
      pinned.evictionClassTx time (objId.toString crates) = 2
  expired : ∀ time, now + secs ≤ time → time < 2 ^ 63 →
    let pinned := db.pin crates now objId owner scope (some secs)
    ¬ PinActive pinned time (objId.toString crates) owner ∧
      ∀ p ∈ (pinned.expirePins crates time).1.pins.rows, p.key ≠ (objId.toString crates, owner)
  /-- The class that is stored with the object when the pin is made. -/
  stored : ∃ row, (db.pin crates now objId owner scope (some secs)).objects.find?
      (objId.toString crates) = some row ∧ row.evictionClass = 2

section Ttl

variable (crates : Crates) (db : NamedLocalStoreDb) (now secs : Nat) (objId : ObjId)
  (owner : String) (scope : PinScope)

/-- Under its key a pin leaves one row, with the new time of expiry. -/
theorem mem_pin_pins {p : PinRow} (hkey : p.key = (objId.toString crates, owner))
    (h : p ∈ (db.pin crates now objId owner scope (some secs)).pins.rows) :
    p.expiresAt = some (asI64 (now + secs)) := by
  unfold NamedLocalStoreDb.pin at h
  rw [(sameFacts_refreshTx crates _ now objId).pins, mem_insertPinTx] at h
  rcases h with rfl | ⟨-, hother⟩
  · exact (upserted_newPinRow _ _).2.2
  · exact absurd hkey hother

theorem exists_mem_pin_pins :
    ∃ p ∈ (db.pin crates now objId owner scope (some secs)).pins.rows,
      p.key = (objId.toString crates, owner) ∧ p.expiresAt = some (asI64 (now + secs)) := by
  unfold NamedLocalStoreDb.pin
  rw [(sameFacts_refreshTx crates _ now objId).pins]
  refine ⟨_, (mem_insertPinTx db now).mpr (.inl rfl), ?_, (upserted_newPinRow _ _).2.2⟩
  exact Table.key_upserted db.pins _ _ (repinnedRow_key _)

/-- Whether the pin is active depends on its time of expiry only. -/
theorem pinActive_pin_iff (time : Nat) :
    PinActive (db.pin crates now objId owner scope (some secs)) time
        (objId.toString crates) owner ↔
      asI64 time < asI64 (now + secs) := by
  constructor
  · rintro ⟨p, hp, hkey, hactive⟩
    unfold PinRow.active at hactive
    rw [mem_pin_pins crates db now secs objId owner scope hkey hp] at hactive
    simpa using hactive
  · intro hlt
    obtain ⟨p, hp, hkey, hexpires⟩ := exists_mem_pin_pins crates db now secs objId owner scope
    refine ⟨p, hp, hkey, ?_⟩
    unfold PinRow.active
    rw [hexpires]
    simpa using hlt

/-- An active pin protects its object. -/
theorem PinActive.protects {db : NamedLocalStoreDb} {time : Nat} {k owner : String}
    (h : PinActive db time k owner) :
    db.hasActivePinTx time k = true ∧ db.evictionClassTx time k = 2 := by
  obtain ⟨p, hp, hkey, hactive⟩ := h
  have hpin : db.hasActivePinTx time k = true :=
    hasActivePinTx_iff.mpr ⟨p, hp, congrArg Prod.fst hkey, hactive⟩
  unfold evictionClassTx
  rw [hpin]
  exact ⟨rfl, rfl⟩

/-- A pin that is not active goes when the pins are expired. -/
theorem expirePins_removes {db : NamedLocalStoreDb} {time : Nat} {k owner : String}
    (h : ¬ PinActive db time k owner) :
    ∀ p ∈ (db.expirePins crates time).1.pins.rows, p.key ≠ (k, owner) := by
  intro p hp hkey
  unfold expirePins NamedLocalStoreDb.deletePinsTx at hp
  dsimp only at hp
  rw [(sameFacts_foldl_refreshTextTx crates _ time _).pins] at hp
  obtain ⟨hmem, hkept⟩ := Table.mem_deleteWhere.mp hp
  exact h ⟨p, hmem, hkey, by simpa using hkept⟩

/-- The class that is stored with a pin that is active when it is made. -/
theorem evictionClass_pin
    (h : PinActive (db.pin crates now objId owner scope (some secs)) now
      (objId.toString crates) owner) :
    ∃ row, (db.pin crates now objId owner scope (some secs)).objects.find?
      (objId.toString crates) = some row ∧ row.evictionClass = 2 := by
  have hclass := h.protects.2
  unfold NamedLocalStoreDb.pin at hclass ⊢
  rw [(sameFacts_refreshTx crates _ now objId).evictionClassTx] at hclass
  have hrow : ∃ row, (db.insertPinTx now (objId.toString crates) owner scope
      (some secs)).objects.find? (objId.toString crates) = some row := by
    change ∃ row, (db.upsertShadowIfAbsentTx now (objId.toString crates)).objects.find?
      (objId.toString crates) = some row
    simp [find?_upsertShadowIfAbsentTx]
  obtain ⟨row, hrow⟩ := hrow
  rw [find?_refreshTx, if_pos rfl, hrow]
  exact ⟨_, rfl, hclass⟩

/-- A pin lasts for its TTL exactly if the time of expiry fits the column, or if the
clock does not fit it either. -/
theorem ttlKept_iff (hsecs : 1 ≤ secs) :
    TtlKept crates db now secs objId owner scope ↔
      now + secs < 2 ^ 63 ∨ (2 ^ 63 ≤ now ∧ now + secs < 2 ^ 64) := by
  have hactive := pinActive_pin_iff crates db now secs objId owner scope
  constructor
  · intro h
    by_contra hbad
    have hfits := h.fits
    -- The clock fits and the time of expiry does not: it is before the clock.
    have hnow : asI64 now = now := asI64_of_lt (by omega)
    have hexpires : asI64 (now + secs) = (now + secs : Nat) - 2 ^ 64 :=
      asI64_of_ge (by omega) hfits
    have hlt := (hactive now).mp (h.active now le_rfl (by omega) (by omega)).1
    omega
  · intro hfits
    have hcompare : ∀ time, now ≤ time → time < now + secs →
        asI64 time < asI64 (now + secs) := by
      intro time hfrom huntil
      rcases hfits with hfits | ⟨hclock, hfits⟩
      · rw [asI64_of_lt (by omega), asI64_of_lt hfits]
        omega
      · rw [asI64_of_ge (by omega) (by omega), asI64_of_ge (by omega) hfits]
        omega
    refine ⟨by omega, ?_, ?_, ?_⟩
    · intro time hfrom huntil _
      have htime := (hactive time).mpr (hcompare time hfrom huntil)
      exact ⟨htime, htime.protects⟩
    · intro time hafter hfit
      have htime : ¬ PinActive (db.pin crates now objId owner scope (some secs)) time
          (objId.toString crates) owner := by
        rw [hactive, asI64_of_lt hfit, asI64_of_lt (by omega)]
        omega
      exact ⟨htime, expirePins_removes crates htime⟩
    · exact evictionClass_pin crates db now secs objId owner scope
        ((hactive now).mpr (hcompare now le_rfl (by omega)))

end Ttl

/-- A pin for the largest TTL that a signed number can hold, made one second after the
epoch. -/
theorem longest_ttl_expires_at_once :
    let pinned := NamedLocalStoreDb.empty.pin sampleCrates 1 ⟨"cyfile", [0]⟩ "owner" .recursive
      (some (2 ^ 63 - 1))
    pinned.hasActivePinTx 1 (ObjId.toString sampleCrates ⟨"cyfile", [0]⟩) = false ∧
      ¬ TtlKept sampleCrates NamedLocalStoreDb.empty 1 (2 ^ 63 - 1) ⟨"cyfile", [0]⟩ "owner"
        .recursive := by
  have hinactive : (NamedLocalStoreDb.empty.pin sampleCrates 1 ⟨"cyfile", [0]⟩ "owner" .recursive
      (some (2 ^ 63 - 1))).hasActivePinTx 1
        (ObjId.toString sampleCrates ⟨"cyfile", [0]⟩) = false := by
    decide
  refine ⟨hinactive, fun h => ?_⟩
  have hactive := (h.active 1 le_rfl (by norm_num) (by norm_num)).2.1
  rw [hinactive] at hactive
  cases hactive

/-- A pin for an hour, made one second after the epoch, lasts an hour. -/
theorem hour_ttlKept_iff :
    TtlKept sampleCrates NamedLocalStoreDb.empty 1 3600 ⟨"cyfile", [0]⟩ "owner" .recursive ↔
      1 + 3600 < 2 ^ 63 ∨ (2 ^ 63 ≤ 1 ∧ 1 + 3600 < 2 ^ 64) :=
  ttlKept_iff sampleCrates NamedLocalStoreDb.empty 1 3600 ⟨"cyfile", [0]⟩ "owner" .recursive
    (by norm_num)

end NamedStore
end CyfsNdn
