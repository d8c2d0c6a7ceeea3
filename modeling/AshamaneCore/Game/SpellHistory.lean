import AshamaneCore.Library.KeyedSet
import AshamaneCore.Library.Transition
import Mathlib.Logic.Function.Basic

/-!
# Cooldowns of spells

Cooldowns are stored by spell, and a second map points from a category to the entry
of its spell. A pointer is the address of an entry; every new entry gets a new address,
an overwritten one keeps its own. Points in time are ticks that do not overflow.
-/

namespace AshamaneCore

open Library

structure SpellInfo where
  id : UInt32
  category : UInt32
  schoolMask : UInt32
  preventionType : UInt32
  isCooldownStartedOnEvent : Bool
  deriving DecidableEq

structure CooldownEntry where
  spellId : UInt32
  cooldownEnd : Int
  itemId : UInt32
  categoryId : UInt32
  categoryEnd : Int
  onHold : Bool
  address : Nat
  deriving DecidableEq

def CooldownEntry.prolong (offset : Int) (e : CooldownEntry) : CooldownEntry :=
  { e with cooldownEnd := e.cooldownEnd + offset }

structure SpellHistory where
  spellCooldowns : KeyedSet fun e : CooldownEntry => e.spellId.toNat
  categoryCooldowns : UInt32 → Option Nat
  schoolLockouts : Fin 7 → Int
  allocated : Nat

namespace SpellHistory

def empty : SpellHistory := ⟨.empty, fun _ => none, fun _ => 0, 0⟩

def ticksPerMillisecond : Int := 1000000

def deref (s : SpellHistory) (address : Nat) : Option CooldownEntry :=
  s.spellCooldowns.entries.find? fun e => e.address = address

def addCooldown (s : SpellHistory) (spellId itemId : UInt32) (cooldownEnd : Int) (categoryId : UInt32)
    (categoryEnd : Int) (onHold : Bool) : SpellHistory :=
  let old := s.spellCooldowns.find? spellId.toNat
  let address := old.elim s.allocated (·.address)
  { s with
    spellCooldowns := s.spellCooldowns.assign
      ⟨spellId, cooldownEnd, itemId, categoryId, categoryEnd, onHold, address⟩
    categoryCooldowns :=
      if categoryId ≠ 0 then Function.update s.categoryCooldowns categoryId (some address)
      else s.categoryCooldowns
    allocated := old.elim (s.allocated + 1) fun _ => s.allocated }

def eraseCooldown (s : SpellHistory) (e : CooldownEntry) : SpellHistory :=
  { s with
    spellCooldowns := s.spellCooldowns.erase e.spellId.toNat
    categoryCooldowns := Function.update s.categoryCooldowns e.categoryId none }

def modifyCooldown (s : SpellHistory) (spellId : UInt32) (offset now : Int) : SpellHistory :=
  match s.spellCooldowns.find? spellId.toNat with
  | none => s
  | some e =>
    if offset = 0 then s
    else if now < e.cooldownEnd + offset then
      { s with
        spellCooldowns :=
          s.spellCooldowns.alter spellId.toNat (CooldownEntry.prolong offset) fun _ => rfl }
    else s.eraseCooldown e

def resetCooldown (s : SpellHistory) (spellId : UInt32) : SpellHistory :=
  match s.spellCooldowns.find? spellId.toNat with
  | none => s
  | some e => s.eraseCooldown e

/-- The loops over all cooldowns that erase those a predicate accepts. -/
def resetCooldowns (s : SpellHistory) (predicate : CooldownEntry → Bool) : SpellHistory :=
  s.spellCooldowns.entries.foldl (fun s e => if predicate e then s.eraseCooldown e else s) s

def resetAllCooldowns (s : SpellHistory) : SpellHistory :=
  { s with categoryCooldowns := fun _ => none, spellCooldowns := .empty }

/-- What a dangling pointer leads to is undefined; here it stays. -/
def categoryExpired (s : SpellHistory) (now : Int) (address : Nat) : Bool :=
  match s.deref address with
  | some e => e.categoryEnd < now
  | none => false

def dropCategories (s : SpellHistory) (now : Int) : SpellHistory :=
  { s with
    categoryCooldowns := fun c =>
      (s.categoryCooldowns c).filter fun address => !s.categoryExpired now address }

def update (s : SpellHistory) (now : Int) : SpellHistory :=
  (s.dropCategories now).resetCooldowns fun e => e.cooldownEnd < now

def getRemainingCooldown (s : SpellHistory) (spellInfo : SpellInfo) (now : Int) : UInt32 :=
  let remaining (cooldownEnd : Int) : UInt32 :=
    if cooldownEnd < now then 0
    else UInt32.ofNat ((cooldownEnd - now) / ticksPerMillisecond).toNat
  match s.spellCooldowns.find? spellInfo.id.toNat with
  | some e => remaining e.cooldownEnd
  | none =>
    match (s.categoryCooldowns spellInfo.category).bind s.deref with
    | some e => remaining e.categoryEnd
    | none => 0

def spellPreventionTypeSilence : UInt32 := 1

/-- One known spell is locked; its remaining cooldown reads the clock again. -/
def lockSpell (schoolMask lockoutTime : UInt32) (now : Int) (reading : UInt32 → Int)
    (s : SpellHistory) (spellInfo : SpellInfo) : SpellHistory :=
  if spellInfo.isCooldownStartedOnEvent then s
  else if spellInfo.preventionType &&& spellPreventionTypeSilence = 0 then s
  else if schoolMask &&& spellInfo.schoolMask ≠ 0 &&
      s.getRemainingCooldown spellInfo (reading spellInfo.id) < lockoutTime then
    s.addCooldown spellInfo.id 0 (now + lockoutTime.toNat * ticksPerMillisecond) 0 now false
  else s

def lockSpellSchool (s : SpellHistory) (knownSpells : List SpellInfo) (schoolMask lockoutTime : UInt32)
    (now : Int) (reading : UInt32 → Int) : SpellHistory :=
  let lockoutEnd := now + lockoutTime.toNat * ticksPerMillisecond
  let s := { s with
    schoolLockouts := fun i =>
      if (1 <<< UInt32.ofNat i.val) &&& schoolMask ≠ 0 then lockoutEnd else s.schoolLockouts i }
  knownSpells.foldl (lockSpell schoolMask lockoutTime now reading) s

inductive Operation
  | addCooldown (spellId itemId : UInt32) (cooldownEnd : Int) (categoryId : UInt32)
      (categoryEnd : Int) (onHold : Bool)
  | lockSpellSchool (knownSpells : List SpellInfo) (schoolMask lockoutTime : UInt32) (now : Int)
      (reading : UInt32 → Int)
  | modifyCooldown (spellId : UInt32) (offset now : Int)
  | resetCooldown (spellId : UInt32)
  | resetCooldowns (predicate : CooldownEntry → Bool)
  | resetAllCooldowns
  | update (now : Int)

def step (s : SpellHistory) : Operation → SpellHistory
  | .addCooldown spellId itemId cooldownEnd categoryId categoryEnd onHold =>
    s.addCooldown spellId itemId cooldownEnd categoryId categoryEnd onHold
  | .lockSpellSchool knownSpells schoolMask lockoutTime now reading =>
    s.lockSpellSchool knownSpells schoolMask lockoutTime now reading
  | .modifyCooldown spellId offset now => s.modifyCooldown spellId offset now
  | .resetCooldown spellId => s.resetCooldown spellId
  | .resetCooldowns predicate => s.resetCooldowns predicate
  | .resetAllCooldowns => s.resetAllCooldowns
  | .update now => s.update now

end SpellHistory

end AshamaneCore

/-!
## Pointers of the categories

Erasing an entry forgets the category the entry has by then. When the spell was put
on cooldown again for another category, or for none by a lock of its school, the
pointer of the earlier category stays behind. So no pointer dangles exactly as long
as every category that points to an erased entry is the category of an entry that
is erased with it, or has expired in the same update.
-/

namespace AshamaneCore.SpellHistory

open Library Library.Transition

def NoDangling (s : SpellHistory) : Prop :=
  ∀ c address, s.categoryCooldowns c = some address →
    ∃ e ∈ s.spellCooldowns.entries, e.address = address

structure Stored (s : SpellHistory) : Prop where
  distinct : ∀ e ∈ s.spellCooldowns.entries, ∀ f ∈ s.spellCooldowns.entries,
    e.address = f.address → e = f
  allocated : ∀ e ∈ s.spellCooldowns.entries, e.address < s.allocated

def erases : Operation → CooldownEntry → Bool
  | .modifyCooldown spellId offset now, e =>
    e.spellId = spellId && offset ≠ 0 && e.cooldownEnd + offset ≤ now
  | .resetCooldown spellId, e => e.spellId = spellId
  | .resetCooldowns predicate, e => predicate e
  | .update now, e => e.cooldownEnd < now
  | _, _ => false

def drops : Operation → CooldownEntry → Bool
  | .update now, e => e.categoryEnd < now
  | _, _ => false

def Covered (s : SpellHistory) (o : Operation) : Prop :=
  ∀ e ∈ s.spellCooldowns.entries, erases o e = true → drops o e = false →
    ∀ c, s.categoryCooldowns c = some e.address →
      ∃ f ∈ s.spellCooldowns.entries, erases o f = true ∧ f.categoryId = c

section Erase

variable {s : SpellHistory}

variable {e : CooldownEntry}

theorem spellId_inj {f : CooldownEntry} (he : e ∈ s.spellCooldowns.entries)
    (hf : f ∈ s.spellCooldowns.entries) (h : e.spellId = f.spellId) : e = f :=
  s.spellCooldowns.key_injective he hf (congrArg UInt32.toNat h)

variable {s' : SpellHistory}

theorem Stored.of_kept (h : Stored s)
    (hEntries : ∀ e ∈ s'.spellCooldowns.entries,
      ∃ f ∈ s.spellCooldowns.entries, f.spellId = e.spellId ∧ f.address = e.address)
    (hAllocated : s.allocated ≤ s'.allocated) : Stored s' := by
  constructor
  · intro e he f hf hSame
    obtain ⟨e', he', hId, hAddress⟩ := hEntries e he
    obtain ⟨f', hf', hId', hAddress'⟩ := hEntries f hf
    have hEq := h.distinct e' he' f' hf' (hAddress.trans (hSame.trans hAddress'.symm))
    apply spellId_inj he hf
    rw [← hId, ← hId', hEq]
  · intro e he
    obtain ⟨e', he', -, hAddress⟩ := hEntries e he
    exact hAddress ▸ (h.allocated e' he').trans_le hAllocated

theorem Stored.of_subset (h : Stored s)
    (hEntries : ∀ e ∈ s'.spellCooldowns.entries, e ∈ s.spellCooldowns.entries)
    (hAllocated : s.allocated ≤ s'.allocated) : Stored s' :=
  h.of_kept (fun e he => ⟨e, hEntries e he, rfl, rfl⟩) hAllocated

theorem Stored.deref_eq (h : Stored s) (he : e ∈ s.spellCooldowns.entries) :
    s.deref e.address = some e := by
  rw [deref]
  cases hFind : s.spellCooldowns.entries.find? fun f => f.address = e.address with
  | none =>
    have hNone := List.find?_eq_none.mp hFind e he
    simp at hNone
  | some f =>
    have hAddress : f.address = e.address := by simpa using List.find?_some hFind
    rw [h.distinct f (List.mem_of_find?_eq_some hFind) e he hAddress]

/-- What is left when the entries that a predicate accepts are erased. -/
structure Erased (s s' : SpellHistory) (predicate : CooldownEntry → Bool) : Prop where
  entries : ∀ e, e ∈ s'.spellCooldowns.entries ↔
    e ∈ s.spellCooldowns.entries ∧ predicate e = false
  index : ∀ c address, s'.categoryCooldowns c = some address ↔
    s.categoryCooldowns c = some address ∧
      ∀ e ∈ s.spellCooldowns.entries, predicate e = true → e.categoryId ≠ c
  allocated : s'.allocated = s.allocated

variable {predicate : CooldownEntry → Bool}

theorem Erased.stored (h : Erased s s' predicate) (hStored : Stored s) : Stored s' :=
  hStored.of_subset (fun e he => ((h.entries e).mp he).1) h.allocated.ge

theorem Erased.noDangling_iff (h : Erased s s' predicate) (hStored : Stored s) (hSafe : NoDangling s) :
    NoDangling s' ↔ ∀ e ∈ s.spellCooldowns.entries, predicate e = true →
      ∀ c, s.categoryCooldowns c = some e.address →
        ∃ f ∈ s.spellCooldowns.entries, predicate f = true ∧ f.categoryId = c := by
  constructor
  · intro hAfter e he hErased c hPoints
    by_contra hNone
    have hStays : s'.categoryCooldowns c = some e.address := by
      refine (h.index c e.address).mpr ⟨hPoints, fun f hf hPredicate hCategory => ?_⟩
      exact hNone ⟨f, hf, hPredicate, hCategory⟩
    obtain ⟨f, hf, hAddress⟩ := hAfter c e.address hStays
    obtain ⟨hIn, hKept⟩ := (h.entries f).mp hf
    rw [hStored.distinct f hIn e he hAddress, hErased] at hKept
    cases hKept
  · intro hCovered c address hPoints
    obtain ⟨hBefore, hOther⟩ := (h.index c address).mp hPoints
    obtain ⟨e, he, rfl⟩ := hSafe c address hBefore
    refine ⟨e, (h.entries e).mpr ⟨he, ?_⟩, rfl⟩
    by_contra hErased
    obtain ⟨f, hf, hPredicate, hCategory⟩ := hCovered e he (Bool.not_eq_false _ ▸ hErased) c hBefore
    exact hOther f hf hPredicate hCategory

theorem eraseCooldown_spec (he : e ∈ s.spellCooldowns.entries) :
    Erased s (s.eraseCooldown e) fun f => f.spellId = e.spellId := by
  constructor
  · intro f
    rw [eraseCooldown, KeyedSet.mem_erase, Ne, UInt32.toNat_inj, decide_eq_false_iff_not]
  · intro c address
    simp only [eraseCooldown, Function.update_apply]
    constructor
    · intro hPoints
      split at hPoints
      · cases hPoints
      · rename_i hNe
        refine ⟨hPoints, fun f hf hSame hCategory => hNe ?_⟩
        rw [← hCategory, spellId_inj hf he (of_decide_eq_true hSame)]
    · rintro ⟨hPoints, hOther⟩
      rw [if_neg fun hSame => hOther e he (decide_eq_true rfl) hSame.symm]
      exact hPoints
  · rfl

theorem Erased.none (h : ∀ e ∈ s.spellCooldowns.entries, predicate e = false) : Erased s s predicate := by
  refine ⟨fun e => ⟨fun he => ⟨he, h e he⟩, And.left⟩, fun c address => ⟨fun hPoints =>
    ⟨hPoints, fun e he hErased => ?_⟩, And.left⟩, rfl⟩
  rw [h e he] at hErased
  cases hErased

theorem Erased.congr {p q : CooldownEntry → Bool} (h : Erased s s' p)
    (hSame : ∀ e ∈ s.spellCooldowns.entries, p e = q e) : Erased s s' q := by
  refine ⟨fun e => (h.entries e).trans ?_, fun c address => (h.index c address).trans ?_, h.allocated⟩
  · exact and_congr_right fun he => by rw [hSame e he]
  · refine and_congr_right fun _ => forall₂_congr fun e he => ?_
    rw [hSame e he]

theorem Erased.trans {s'' : SpellHistory} {p q : CooldownEntry → Bool} (h : Erased s s' p)
    (hNext : Erased s' s'' q) (hFirst : ∀ e ∈ s.spellCooldowns.entries, p e = true → q e = true) :
    Erased s s'' q := by
  constructor
  · intro e
    rw [hNext.entries, h.entries]
    constructor
    · exact fun hBoth => ⟨hBoth.1.1, hBoth.2⟩
    · rintro ⟨he, hKept⟩
      refine ⟨⟨he, Bool.eq_false_iff.mpr fun hErased => ?_⟩, hKept⟩
      rw [hFirst e he hErased] at hKept
      cases hKept
  · intro c address
    rw [hNext.index, h.index]
    constructor
    · rintro ⟨⟨hPoints, hOther⟩, hRest⟩
      refine ⟨hPoints, fun e he hErased => ?_⟩
      cases hp : p e with
      | true => exact hOther e he hp
      | false => exact hRest e ((h.entries e).mpr ⟨he, hp⟩) hErased
    · rintro ⟨hPoints, hOther⟩
      refine ⟨⟨hPoints, fun e he hErased => hOther e he (hFirst e he hErased)⟩, fun e he => ?_⟩
      exact hOther e ((h.entries e).mp he).1
  · exact hNext.allocated.trans h.allocated

theorem resetCooldowns_spec (s : SpellHistory) (predicate : CooldownEntry → Bool) :
    Erased s (s.resetCooldowns predicate) predicate := by
  have hAll : ∀ (l : List CooldownEntry) (t : SpellHistory),
      (∀ e ∈ l, e ∈ t.spellCooldowns.entries) → (l.Pairwise fun e f => e.spellId ≠ f.spellId) →
      (∀ e ∈ t.spellCooldowns.entries, predicate e = true → e ∈ l) →
      Erased t (l.foldl (fun s e => if predicate e then s.eraseCooldown e else s) t) predicate := by
    intro l
    induction l with
    | nil =>
      intro t _ _ hRest
      refine Erased.none fun e he => Bool.eq_false_iff.mpr fun hErased => ?_
      cases hRest e he hErased
    | cons e l ih =>
      intro t hIn hPairwise hRest
      have he := hIn e List.mem_cons_self
      rw [List.foldl_cons]
      split
      · rename_i hErased
        have hOne := eraseCooldown_spec he
        refine hOne.trans (ih _ ?_ hPairwise.of_cons ?_) ?_
        · intro f hf
          refine (hOne.entries f).mpr ⟨hIn f (List.mem_cons_of_mem _ hf), decide_eq_false fun hSame => ?_⟩
          exact List.rel_of_pairwise_cons hPairwise hf hSame.symm
        · intro f hf hAccepted
          obtain ⟨hBefore, hOther⟩ := (hOne.entries f).mp hf
          refine (List.mem_cons.mp (hRest f hBefore hAccepted)).resolve_left ?_
          rintro rfl
          exact of_decide_eq_false hOther rfl
        · intro f hf hSame
          rw [spellId_inj hf he (of_decide_eq_true hSame)]
          exact hErased
      · rename_i hKept
        refine ih t (fun f hf => hIn f (List.mem_cons_of_mem _ hf)) hPairwise.of_cons ?_
        intro f hf hAccepted
        refine (List.mem_cons.mp (hRest f hf hAccepted)).resolve_left ?_
        rintro rfl
        exact hKept hAccepted
  refine hAll _ s (fun _ he => he) (s.spellCooldowns.sorted.imp ?_) fun _ he _ => he
  intro e f hLt hSame
  exact Nat.lt_irrefl _ (hSame ▸ hLt)

end Erase

section Add

variable {s : SpellHistory} (h : Stored s)

include h in
theorem stored_addCooldown (spellId itemId : UInt32) (cooldownEnd : Int) (categoryId : UInt32)
    (categoryEnd : Int) (onHold : Bool) :
    Stored (s.addCooldown spellId itemId cooldownEnd categoryId categoryEnd onHold) := by
  rw [addCooldown]
  cases hFind : s.spellCooldowns.find? spellId.toNat with
  | none =>
    constructor
    · intro e he f hf hSame
      rcases KeyedSet.mem_assign.mp he with rfl | ⟨he, -⟩
      · rcases KeyedSet.mem_assign.mp hf with rfl | ⟨hf, -⟩
        · rfl
        · exact absurd (h.allocated f hf) (hSame ▸ Nat.lt_irrefl _)
      · rcases KeyedSet.mem_assign.mp hf with rfl | ⟨hf, -⟩
        · exact absurd (h.allocated e he) (hSame ▸ Nat.lt_irrefl _)
        · exact h.distinct e he f hf hSame
    · intro e he
      rcases KeyedSet.mem_assign.mp he with rfl | ⟨he, -⟩
      · exact Nat.lt_succ_self _
      · exact (h.allocated e he).trans (Nat.lt_succ_self _)
  | some old =>
    obtain ⟨hOld, hKey⟩ := KeyedSet.find?_eq_some_iff.mp hFind
    constructor
    · intro e he f hf hSame
      rcases KeyedSet.mem_assign.mp he with rfl | ⟨he, hNe⟩
      · rcases KeyedSet.mem_assign.mp hf with rfl | ⟨hf, hNe'⟩
        · rfl
        · obtain rfl := h.distinct old hOld f hf hSame
          exact absurd hKey hNe'
      · rcases KeyedSet.mem_assign.mp hf with rfl | ⟨hf, hNe'⟩
        · obtain rfl := h.distinct e he old hOld hSame
          exact absurd hKey hNe
        · exact h.distinct e he f hf hSame
    · intro e he
      rcases KeyedSet.mem_assign.mp he with rfl | ⟨he, -⟩
      · exact h.allocated old hOld
      · exact h.allocated e he

theorem noDangling_addCooldown (hSafe : NoDangling s) (spellId itemId : UInt32) (cooldownEnd : Int)
    (categoryId : UInt32) (categoryEnd : Int) (onHold : Bool) :
    NoDangling (s.addCooldown spellId itemId cooldownEnd categoryId categoryEnd onHold) := by
  have hNew : ∃ e ∈ (s.addCooldown spellId itemId cooldownEnd categoryId categoryEnd
      onHold).spellCooldowns.entries,
        e.address = (s.spellCooldowns.find? spellId.toNat).elim s.allocated (·.address) :=
    ⟨_, KeyedSet.mem_assign.mpr (Or.inl rfl), rfl⟩
  have hOld : ∀ c address, s.categoryCooldowns c = some address →
      ∃ e ∈ (s.addCooldown spellId itemId cooldownEnd categoryId categoryEnd
        onHold).spellCooldowns.entries, e.address = address := by
    intro c address hPoints
    obtain ⟨e, he, rfl⟩ := hSafe c address hPoints
    rcases eq_or_ne e.spellId.toNat spellId.toNat with hSame | hNe
    · rw [KeyedSet.find?_eq_some_iff.mpr ⟨he, hSame⟩] at hNew
      exact hNew
    · exact ⟨e, KeyedSet.mem_assign.mpr (Or.inr ⟨he, hNe⟩), rfl⟩
  intro c address hPoints
  simp only [addCooldown] at hPoints
  split at hPoints
  · rw [Function.update_apply] at hPoints
    split at hPoints
    · obtain rfl := Option.some.inj hPoints
      exact hNew
    · exact hOld c address hPoints
  · exact hOld c address hPoints

end Add

structure Sound (s : SpellHistory) : Prop extends Stored s where
  noDangling : NoDangling s

theorem sound_empty : Sound .empty :=
  ⟨⟨fun _ he => absurd he List.not_mem_nil, fun _ he => absurd he List.not_mem_nil⟩,
    fun _ _ hPoints => nomatch hPoints⟩

variable {s : SpellHistory}

theorem lockSpellSchool_keeps {P : SpellHistory → Prop} (hs : P s)
    (hSchools : ∀ t lockouts, P t → P { t with schoolLockouts := lockouts })
    (hAdd : ∀ t spellId cooldownEnd now, P t → P (t.addCooldown spellId 0 cooldownEnd 0 now false))
    (knownSpells : List SpellInfo) (schoolMask lockoutTime : UInt32) (now : Int)
    (reading : UInt32 → Int) :
    P (s.lockSpellSchool knownSpells schoolMask lockoutTime now reading) := by
  have hLock : ∀ t spellInfo, P t → P (lockSpell schoolMask lockoutTime now reading t spellInfo) := by
    intro t spellInfo ht
    rw [lockSpell]
    split
    · exact ht
    · split
      · exact ht
      · split
        · exact hAdd t _ _ _ ht
        · exact ht
  change P (run (lockSpell schoolMask lockoutTime now reading) _ knownSpells)
  exact invariant hLock (hSchools s _ hs) knownSpells

theorem stored_lockSpellSchool (h : Stored s) (knownSpells : List SpellInfo)
    (schoolMask lockoutTime : UInt32) (now : Int) (reading : UInt32 → Int) :
    Stored (s.lockSpellSchool knownSpells schoolMask lockoutTime now reading) := by
  apply lockSpellSchool_keeps h
  · exact fun _ _ ht => ⟨ht.distinct, ht.allocated⟩
  · exact fun _ _ _ _ ht => stored_addCooldown ht _ _ _ _ _ _

theorem sound_lockSpellSchool (h : Sound s) (knownSpells : List SpellInfo)
    (schoolMask lockoutTime : UInt32) (now : Int) (reading : UInt32 → Int) :
    Sound (s.lockSpellSchool knownSpells schoolMask lockoutTime now reading) := by
  apply lockSpellSchool_keeps h
  · exact fun _ _ ht => ⟨⟨ht.distinct, ht.allocated⟩, ht.noDangling⟩
  · exact fun _ _ _ _ ht => ⟨stored_addCooldown ht.toStored _ _ _ _ _ _,
      noDangling_addCooldown ht.noDangling _ _ _ _ _ _⟩

theorem sound_dropCategories (h : Sound s) (now : Int) :
    Sound (s.dropCategories now) := by
  refine ⟨⟨h.distinct, h.allocated⟩, fun c address hPoints => ?_⟩
  exact h.noDangling c address (Option.filter_eq_some_iff.mp hPoints).1

theorem toNat_prolong (offset : Int) (e : CooldownEntry) :
    (e.prolong offset).spellId.toNat = e.spellId.toNat := rfl

def prolonged (s : SpellHistory) (spellId : UInt32) (offset : Int) : SpellHistory :=
  { s with
    spellCooldowns :=
      s.spellCooldowns.alter spellId.toNat (CooldownEntry.prolong offset) (toNat_prolong offset) }

theorem mem_prolonged {spellId : UInt32} {offset : Int} {e : CooldownEntry} :
    e ∈ (s.prolonged spellId offset).spellCooldowns.entries ↔
      (∃ f ∈ s.spellCooldowns.entries, f.spellId.toNat = spellId.toNat ∧ f.prolong offset = e) ∨
        e ∈ s.spellCooldowns.entries ∧ e.spellId.toNat ≠ spellId.toNat :=
  KeyedSet.mem_alter (toNat_prolong offset)

theorem stored_prolonged (h : Stored s) (spellId : UInt32) (offset : Int) :
    Stored (s.prolonged spellId offset) := by
  apply h.of_kept
  · intro e he
    rcases mem_prolonged.mp he with ⟨f, hf, -, rfl⟩ | ⟨he, -⟩
    · exact ⟨f, hf, rfl, rfl⟩
    · exact ⟨e, he, rfl, rfl⟩
  · exact le_rfl

theorem sound_prolonged (h : Sound s) (spellId : UInt32) (offset : Int) :
    Sound (s.prolonged spellId offset) := by
  refine ⟨stored_prolonged h.toStored spellId offset, fun c address hPoints => ?_⟩
  obtain ⟨e, he, rfl⟩ := h.noDangling c address hPoints
  rcases eq_or_ne e.spellId.toNat spellId.toNat with hSame | hNe
  · exact ⟨_, mem_prolonged.mpr (Or.inl ⟨e, he, hSame, rfl⟩), rfl⟩
  · exact ⟨e, mem_prolonged.mpr (Or.inr ⟨he, hNe⟩), rfl⟩

section Step

variable {s : SpellHistory} (h : Sound s)

theorem covered_of_none {o : Operation} (hNone : ∀ e ∈ s.spellCooldowns.entries, erases o e = false) :
    Covered s o := by
  intro e he hErased
  rw [hNone e he] at hErased
  cases hErased

include h in
theorem erased_sound {o : Operation} {s' : SpellHistory} (hErased : Erased s s' (erases o))
    (hNone : ∀ e, drops o e = false) : Stored s' ∧ (NoDangling s' ↔ Covered s o) := by
  refine ⟨hErased.stored h.toStored, (hErased.noDangling_iff h.toStored h.noDangling).trans ?_⟩
  exact forall₃_congr fun e _ _ => ⟨fun hAll _ => hAll, fun hAll => hAll (hNone e)⟩

theorem resetCooldown_spec (s : SpellHistory) (spellId : UInt32) :
    Erased s (s.resetCooldown spellId) (erases (.resetCooldown spellId)) := by
  rw [resetCooldown]
  split
  · rename_i hFind
    refine Erased.none fun e he => decide_eq_false fun hSame => ?_
    exact KeyedSet.find?_eq_none_iff.mp hFind e he (congrArg UInt32.toNat hSame)
  · rename_i e hFind
    obtain ⟨he, hKey⟩ := KeyedSet.find?_eq_some_iff.mp hFind
    obtain rfl := UInt32.toNat_inj.mp hKey
    exact eraseCooldown_spec he

theorem modifyCooldown_cases (s : SpellHistory) (spellId : UInt32) (offset now : Int) :
    Erased s (s.modifyCooldown spellId offset now) (erases (.modifyCooldown spellId offset now)) ∨
      s.modifyCooldown spellId offset now = s.prolonged spellId offset ∧
        ∀ e ∈ s.spellCooldowns.entries, erases (.modifyCooldown spellId offset now) e = false := by
  have hErases : ∀ e, erases (.modifyCooldown spellId offset now) e = true ↔
      e.spellId = spellId ∧ offset ≠ 0 ∧ e.cooldownEnd + offset ≤ now := by
    intro e
    simp [erases, and_assoc]
  rw [modifyCooldown]
  split
  · rename_i hFind
    refine Or.inl (Erased.none fun e he => ?_)
    rw [Bool.eq_false_iff, Ne, hErases]
    rintro ⟨rfl, -⟩
    exact KeyedSet.find?_eq_none_iff.mp hFind e he rfl
  · rename_i e hFind
    obtain ⟨he, hKey⟩ := KeyedSet.find?_eq_some_iff.mp hFind
    obtain rfl := UInt32.toNat_inj.mp hKey
    split
    · rename_i hZero
      refine Or.inl (Erased.none fun f _ => ?_)
      rw [Bool.eq_false_iff, Ne, hErases]
      exact fun hAll => hAll.2.1 hZero
    · rename_i hNonzero
      split
      · rename_i hLater
        refine Or.inr ⟨rfl, fun f hf => ?_⟩
        rw [Bool.eq_false_iff, Ne, hErases]
        rintro ⟨hSame, -, hOver⟩
        rw [spellId_inj hf he hSame] at hOver
        omega
      · rename_i hOver
        refine Or.inl ((eraseCooldown_spec he).congr fun f hf => ?_)
        rw [Bool.eq_iff_iff, hErases, decide_eq_true_iff]
        constructor
        · intro hSame
          rw [spellId_inj hf he hSame]
          exact ⟨rfl, hNonzero, not_lt.mp hOver⟩
        · exact And.left

include h in
theorem modifyCooldown_sound (spellId : UInt32) (offset now : Int) :
    Stored (s.modifyCooldown spellId offset now) ∧
      (NoDangling (s.modifyCooldown spellId offset now) ↔
        Covered s (.modifyCooldown spellId offset now)) := by
  rcases modifyCooldown_cases s spellId offset now with hErased | ⟨hEq, hNone⟩
  · exact erased_sound h hErased fun _ => rfl
  · have hSound := sound_prolonged h spellId offset
    rw [hEq]
    exact ⟨hSound.toStored, iff_of_true hSound.noDangling (covered_of_none hNone)⟩

include h in
theorem update_sound (now : Int) :
    Stored (s.update now) ∧ (NoDangling (s.update now) ↔ Covered s (.update now)) := by
  have hDrop := sound_dropCategories h now
  have hErased := resetCooldowns_spec (s.dropCategories now) fun e => e.cooldownEnd < now
  refine ⟨hErased.stored hDrop.toStored,
    (hErased.noDangling_iff hDrop.toStored hDrop.noDangling).trans ?_⟩
  refine forall₃_congr fun e he _ => ?_
  have hPoints : ∀ c, (s.dropCategories now).categoryCooldowns c = some e.address ↔
      drops (.update now) e = false ∧ s.categoryCooldowns c = some e.address := by
    intro c
    simp only [dropCategories, Option.filter_eq_some_iff, categoryExpired,
      h.toStored.deref_eq he, drops, Bool.not_eq_true']
    exact and_comm
  constructor
  · exact fun hAll hKept c hPoint => hAll c ((hPoints c).mpr ⟨hKept, hPoint⟩)
  · intro hAll c hPoint
    obtain ⟨hKept, hPoint⟩ := (hPoints c).mp hPoint
    exact hAll hKept c hPoint

include h in
theorem step_sound (o : Operation) : Stored (step s o) ∧ (NoDangling (step s o) ↔ Covered s o) := by
  cases o with
  | addCooldown spellId itemId cooldownEnd categoryId categoryEnd onHold =>
    refine ⟨stored_addCooldown h.toStored _ _ _ _ _ _,
      iff_of_true ?_ (covered_of_none fun _ _ => rfl)⟩
    exact noDangling_addCooldown h.noDangling _ _ _ _ _ _
  | lockSpellSchool knownSpells schoolMask lockoutTime now reading =>
    have hSound := sound_lockSpellSchool h knownSpells schoolMask lockoutTime now reading
    exact ⟨hSound.toStored, iff_of_true hSound.noDangling (covered_of_none fun _ _ => rfl)⟩
  | modifyCooldown spellId offset now => exact modifyCooldown_sound h spellId offset now
  | resetCooldown spellId => exact erased_sound h (resetCooldown_spec s spellId) fun _ => rfl
  | resetCooldowns predicate => exact erased_sound h (resetCooldowns_spec s predicate) fun _ => rfl
  | resetAllCooldowns =>
    refine ⟨h.toStored.of_subset (fun _ he => absurd he List.not_mem_nil) le_rfl,
      iff_of_true ?_ (covered_of_none fun _ _ => rfl)⟩
    exact sound_empty.noDangling
  | update now => exact update_sound h now

end Step

/-- In every run no pointer dangles in any state exactly if every operation covers
what it erases. -/
theorem noDangling_iff_covered (operations : List Operation) :
    (∀ first, first <+: operations → NoDangling (run step empty first)) ↔
      Along step Covered empty operations := by
  refine reached_iff_along (I := Sound) ?_ (fun _ h => h.noDangling) ?_ sound_empty operations
  · intro s o h hCovered
    have hStep := step_sound h o
    exact ⟨hStep.1, hStep.2.mpr hCovered⟩
  · exact fun s o h => (step_sound h o).2.mp

/-- A spell on cooldown for a category is locked and then reset. -/
theorem lockedReset_dangles : ¬ ∀ operations : List Operation,
    NoDangling (run step empty operations) := by
  intro h
  obtain ⟨e, he, -⟩ := h
    [.addCooldown 100 0 5000000000 7 5000000000 false,
      .lockSpellSchool [⟨100, 7, 1, 1, false⟩] 1 6000 0 fun _ => 0, .resetCooldown 100]
    7 0 (by decide)
  have hEmpty : (run step empty
      [.addCooldown 100 0 5000000000 7 5000000000 false,
        .lockSpellSchool [⟨100, 7, 1, 1, false⟩] 1 6000 0 fun _ => 0,
        .resetCooldown 100]).spellCooldowns.entries = [] := by decide
  rw [hEmpty] at he
  cases he

end AshamaneCore.SpellHistory
