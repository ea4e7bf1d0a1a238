import Mathlib.Data.List.Infix
import Mathlib.Data.List.Range
import SlimeOs.FallibleCall

/-!
A block device that may fail ambiguously: a write can return an error although
the sector was written.

The device keeps the list of writes it performed, so that what it held at each
instant, and what each write found, can be stated after the fact. Power that is
lost at some operation is a device that answers nothing from then on.
-/

namespace SlimeOs.BlockDevice

open List SlimeOs.FallibleCall

/-- What the device does with a write or a flush: it completes, or it fails with an
error and, if it was a write, may have written the sector all the same. -/
inductive Answer (ε : Type) where
  | done
  | failed (error : ε) (written : Bool)

/-- The contents of a disk, the number of operations so far and the writes performed,
the latest first. -/
structure Device (Sector : Type) where
  disk : Nat → Sector
  clock : Nat
  trace : List (Nat × Sector)

namespace Device

variable {Sector : Type}

def fresh (disk : Nat → Sector) : Device Sector := ⟨disk, 0, []⟩

def wrote (device : Device Sector) (lba : Nat) (sector : Sector) : Device Sector :=
  ⟨Function.update device.disk lba sector, device.clock + 1, (lba, sector) :: device.trace⟩

def idled (device : Device Sector) : Device Sector :=
  { device with clock := device.clock + 1 }

end Device

section Operations

variable {Sector ε : Type}

def readSector (lba : Nat) : Call (Device Sector) ε Sector := fun device =>
  (.ok (device.disk lba), device)

def readSectors (lba : Nat) : Nat → Call (Device Sector) ε (List Sector)
  | 0 => pure []
  | count + 1 => do
    let sector ← readSector lba
    let rest ← readSectors (lba + 1) count
    pure (sector :: rest)

variable (answers : Nat → Answer ε)

def writeSector (lba : Nat) (sector : Sector) : Call (Device Sector) ε Unit := fun device =>
  match answers device.clock with
  | .done => (.ok (), device.wrote lba sector)
  | .failed error true => (.error (.returned error), device.wrote lba sector)
  | .failed error false => (.error (.returned error), device.idled)

def flush : Call (Device Sector) ε Unit := fun device =>
  match answers device.clock with
  | .done => (.ok (), device.idled)
  | .failed error _ => (.error (.returned error), device.idled)

def writeSectors (lba : Nat) : List Sector → Call (Device Sector) ε Unit
  | [] => pure ()
  | sector :: sectors => do
    writeSector answers lba sector
    writeSectors (lba + 1) sectors

/-- A device that completes a number of operations and then loses power. -/
def powerFor (error : ε) (power : Nat) (clock : Nat) : Answer ε :=
  if clock < power then .done else .failed error false

end Operations

section Specifications

variable {Sector ε : Type} {answers : Nat → Answer ε}

theorem readSectors_eq (lba count : Nat) (device : Device Sector) :
    (readSectors lba count : Call (Device Sector) ε _) device =
      (.ok ((List.range' lba count).map device.disk), device) := by
  induction count generalizing lba with
  | zero => rfl
  | succ count ih =>
    change (readSectors (lba + 1) count >>= fun rest => _) device = _
    rw [Call.bind_apply, ih]
    rfl

theorem writeSector_ensures (lba : Nat) (sector : Sector) (device : Device Sector) :
    Call.Ensures (writeSector answers lba sector) device fun outcome device' =>
      (outcome = .ok () ∧ answers device.clock = .done ∧ device' = device.wrote lba sector) ∨
      (∃ error, outcome = .error (.returned error) ∧
        answers device.clock = .failed error true ∧ device' = device.wrote lba sector) ∨
      (∃ error, outcome = .error (.returned error) ∧
        answers device.clock = .failed error false ∧ device' = device.idled) := by
  unfold Call.Ensures writeSector
  rcases hanswer : answers device.clock with _ | ⟨error, _ | _⟩
  · exact .inl ⟨rfl, rfl, rfl⟩
  · exact .inr (.inr ⟨error, rfl, rfl, rfl⟩)
  · exact .inr (.inl ⟨error, rfl, rfl, rfl⟩)

theorem flush_ensures (device : Device Sector) :
    Call.Ensures (flush answers) device fun outcome device' =>
      device' = device.idled ∧ (outcome = .ok () ∨ ∃ error written,
        outcome = .error (.returned error) ∧ answers device.clock = .failed error written) := by
  unfold Call.Ensures flush
  rcases answers device.clock with _ | ⟨error, written⟩
  · exact ⟨rfl, .inl rfl⟩
  · exact ⟨rfl, .inr ⟨error, written, rfl, rfl⟩⟩

theorem powerFor_failed {error reported : ε} {power clock : Nat} {written : Bool}
    (h : powerFor error power clock = .failed reported written) :
    power ≤ clock ∧ written = false := by
  unfold powerFor at h
  split at h
  · cases h
  next hpower =>
    obtain ⟨-, rfl⟩ := Answer.failed.inj h
    exact ⟨Nat.not_lt.mp hpower, rfl⟩

/-- The loop preserves what every write into the range does; completed, it has written the sectors.
-/
theorem writeSectors_ensures (sectors : List Sector) (lba : Nat) (Inv : Device Sector → Prop)
    (hwrote : ∀ device i sector, Inv device → lba ≤ i → i < lba + sectors.length →
      Inv (device.wrote i sector))
    (hidled : ∀ device, Inv device → Inv device.idled) (device : Device Sector)
    (hdevice : Inv device) :
    Call.Ensures (writeSectors answers lba sectors) device fun outcome device' =>
      Inv device' ∧ (outcome = .ok () →
        ∀ i (hi : i < sectors.length), device'.disk (lba + i) = sectors[i]) := by
  induction sectors generalizing lba Inv device with
  | nil => exact ⟨hdevice, fun _ i hi => absurd hi (Nat.not_lt_zero i)⟩
  | cons sector sectors ih =>
    have hfirst := hwrote device lba sector hdevice (le_refl lba) (by simp)
    apply Call.ensures_bind (writeSector_ensures lba sector device)
    · intro _ written hwritten
      obtain rfl : written = device.wrote lba sector := by
        rcases hwritten with ⟨-, -, h⟩ | ⟨error, h, -⟩ | ⟨error, h, -⟩
        · exact h
        · cases h
        · cases h
      -- the sectors that follow leave the first one alone
      have hrest := ih (lba + 1) (fun device' => Inv device' ∧ device'.disk lba = sector) ?_ ?_
        (device.wrote lba sector) ⟨hfirst, Function.update_self ..⟩
      · apply Call.ensures_weaken hrest
        rintro outcome device' ⟨⟨hinv, hkept⟩, hsectors⟩
        refine ⟨hinv, fun hok i hi => ?_⟩
        rcases i with _ | i
        · exact hkept
        have hnext := hsectors hok i (by simpa using hi)
        rw [getElem_cons_succ, ← hnext]
        congr 1
        omega
      · rintro device' i other ⟨hinv, hkept⟩ hlow hhigh
        refine ⟨hwrote device' i other hinv (by omega) ?_, ?_⟩
        · rw [length_cons]
          omega
        · rw [← hkept]
          exact Function.update_of_ne (by omega) ..
      · rintro device' ⟨hinv, hkept⟩
        exact ⟨hidled device' hinv, hkept⟩
    · rintro fault written (⟨h, -⟩ | ⟨error, -, -, rfl⟩ | ⟨error, -, -, rfl⟩)
      · cases h
      · exact ⟨hfirst, nofun⟩
      · exact ⟨hidled device hdevice, nofun⟩

end Specifications

section Observations

variable {Sector : Type} {start : Nat → Sector} {Content : (Nat → Sector) → Prop}
  {Target : (Nat → Sector) → Nat → Prop} {device : Device Sector}

/-- The contents of a disk after the writes of a trace. -/
def replay (disk : Nat → Sector) : List (Nat × Sector) → Nat → Sector
  | [] => disk
  | (lba, sector) :: earlier => Function.update (replay disk earlier) lba sector

/-- Since it held `start`, every content of the device satisfied one predicate, and every
write, where it went, another one of the contents it found. -/
structure Observed (start : Nat → Sector) (Content : (Nat → Sector) → Prop)
    (Target : (Nat → Sector) → Nat → Prop) (device : Device Sector) : Prop where
  replayed : device.disk = replay start device.trace
  contents : ∀ earlier, earlier <:+ device.trace → Content (replay start earlier)
  targets : ∀ lba sector earlier, (lba, sector) :: earlier <:+ device.trace →
    Target (replay start earlier) lba

theorem observed_fresh (hstart : Content start) :
    Observed start Content Target (Device.fresh start) := by
  refine ⟨rfl, ?_, ?_⟩
  · intro earlier hearlier
    obtain rfl := suffix_nil.mp hearlier
    exact hstart
  · intro lba sector earlier hearlier
    exact absurd (suffix_nil.mp hearlier) nofun

theorem Observed.idled (h : Observed start Content Target device) :
    Observed start Content Target device.idled :=
  ⟨h.replayed, h.contents, h.targets⟩

theorem Observed.wrote {lba : Nat} {sector : Sector}
    (h : Observed start Content Target device) (htarget : Target device.disk lba)
    (hcontent : Content (Function.update device.disk lba sector)) :
    Observed start Content Target (device.wrote lba sector) := by
  have hreplay : Function.update device.disk lba sector =
      replay start ((lba, sector) :: device.trace) := by
    rw [h.replayed, replay]
  refine ⟨hreplay, ?_, ?_⟩
  · intro earlier hearlier
    rcases suffix_cons_iff.mp hearlier with rfl | hearlier
    · rw [← hreplay]
      exact hcontent
    · exact h.contents earlier hearlier
  · intro lba' sector' earlier hearlier
    rcases suffix_cons_iff.mp hearlier with heq | hearlier
    · obtain ⟨hwrite, rfl⟩ := List.cons.inj heq
      obtain ⟨rfl, rfl⟩ := Prod.mk.inj hwrite
      rw [← h.replayed]
      exact htarget
    · exact h.targets lba' sector' earlier hearlier

end Observations

end SlimeOs.BlockDevice
