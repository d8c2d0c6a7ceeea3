import AshamaneCore.Game.AuctionHouseMgr

/-!
# Replication of the auction house

A client reads the whole auction house page by page. The numbers that come with a page are
the request for the next one: the cursor is the last auction of the page, and the tombstone
is the last auction of the house where the page is full.
-/

namespace AshamaneCore.Auctions

open Library

universe u

structure ChangeNumbers where
  global : Nat
  cursor : Nat
  tombstone : Nat
  deriving DecidableEq

structure PlayerGetAllThrottleData extends ChangeNumbers where
  nextAllowedReplication : Int
  deriving DecidableEq

structure ListedAuction where
  auction : AuctionEntry
  item : AuctionItem
  deriving DecidableEq

structure AuctionReplicateResponse where
  numbers : ChangeNumbers
  items : List ListedAuction
  deriving DecidableEq

def AuctionReplicateResponse.nothing : AuctionReplicateResponse := ⟨⟨0, 0, 0⟩, []⟩

structure ReplicateCall where
  curTime : Int
  count : Nat

structure AuctionHouseObject (Guid : Type u) where
  auctionsMap : KeyedSet AuctionEntry.id
  positive : ∀ auction ∈ auctionsMap.entries, 0 < auction.id
  getAllThrottleMap : Guid → Option PlayerGetAllThrottleData

/-- The items of the auctions, and the time between two replications of a player. -/
structure ReplicationRules where
  getAItem : Nat → Option AuctionItem
  getAllDelay : Nat

def PlayerGetAllThrottleData.isReplicationInProgress (data : PlayerGetAllThrottleData) : Bool :=
  data.cursor ≠ data.tombstone && data.global ≠ 0

namespace ReplicationRules

variable (rules : ReplicationRules)

/-- The entry of an auction in the response, unless it has expired or its item is missing. -/
def listed (curTime : Int) (auction : AuctionEntry) : Option ListedAuction :=
  if auction.expireTime < curTime then none
  else (rules.getAItem auction.itemGuidLow).map fun item => ⟨auction, item⟩

def page (curTime : Int) : List AuctionEntry → Nat → List ListedAuction × Nat
  | [], count => ([], count)
  | auction :: auctions, count =>
    match rules.listed curTime auction with
    | none => page curTime auctions count
    | some entry =>
      if count - 1 = 0 then ([entry], 0)
      else ((entry :: (page curTime auctions (count - 1)).1), (page curTime auctions (count - 1)).2)

def available (curTime : Int) (auctions : List AuctionEntry) : List ListedAuction :=
  auctions.filterMap (rules.listed curTime)

variable {rules} {curTime : Int}

theorem auction_listed {auction : AuctionEntry} {entry : ListedAuction}
    (h : rules.listed curTime auction = some entry) : entry.auction = auction := by
  rw [listed] at h
  split at h
  · cases h
  · obtain ⟨item, -, rfl⟩ := Option.map_eq_some_iff.mp h
    rfl

theorem listed_mono {earlier : Int} (hTime : earlier ≤ curTime) {auction : AuctionEntry} {entry : ListedAuction}
    (h : rules.listed curTime auction = some entry) : rules.listed earlier auction = some entry := by
  rw [listed] at h ⊢
  split at h
  · cases h
  · rename_i hFresh
    rwa [if_neg fun hExpired => hFresh (hExpired.trans_le hTime)]

theorem page_eq (auctions : List AuctionEntry) {count : Nat} (h : 1 ≤ count) :
    rules.page curTime auctions count =
      ((rules.available curTime auctions).take count, count - (rules.available curTime auctions).length) := by
  induction auctions generalizing count with
  | nil => rw [page, available, List.filterMap_nil, List.take_nil, List.length_nil, Nat.sub_zero]
  | cons auction auctions ih =>
    rw [page, available, List.filterMap_cons]
    cases hEntry : rules.listed curTime auction with
    | none => exact ih h
    | some entry =>
      obtain ⟨n, rfl⟩ : ∃ n, count = n + 1 := ⟨count - 1, by omega⟩
      simp only [Nat.add_sub_cancel, List.take_succ_cons, List.length_cons, Nat.add_sub_add_right]
      split
      · rename_i hZero
        rw [hZero, List.take_zero, Nat.zero_sub]
      · rename_i hSome
        rw [ih (Nat.one_le_iff_ne_zero.mpr hSome)]
        rfl

end ReplicationRules

namespace AuctionHouseObject

variable {Guid : Type u} (house : AuctionHouseObject Guid) (rules : ReplicationRules)

def setThrottle [DecidableEq Guid] (player : Guid) (data : PlayerGetAllThrottleData) : AuctionHouseObject Guid :=
  { house with getAllThrottleMap := Function.update house.getAllThrottleMap player (some data) }

def upperBound (cursor : Nat) : List AuctionEntry :=
  house.auctionsMap.entries.dropWhile fun auction => auction.id ≤ cursor

def lastKey : Nat := house.auctionsMap.entries.getLast?.elim 0 AuctionEntry.id

def numbersBehind (items : List ListedAuction) (count global : Nat) : ChangeNumbers where
  global := global
  cursor := items.getLast?.elim 0 fun entry => entry.auction.id
  tombstone := if count = 0 then house.lastKey else 0

def replicatePage [DecidableEq Guid] (curTime : Int) (player : Guid) (data : PlayerGetAllThrottleData) (cursor count : Nat) :
    AuctionHouseObject Guid × AuctionReplicateResponse :=
  if house.auctionsMap.entries.isEmpty || count = 0 then (house.setThrottle player data, .nothing)
  else
    let page := rules.page curTime (house.upperBound cursor) count
    let numbers := house.numbersBehind page.1 page.2 data.global
    (house.setThrottle player { data with toChangeNumbers := numbers }, ⟨numbers, page.1⟩)

def newThrottle (curTime : Int) : PlayerGetAllThrottleData where
  global := (curTime % 2 ^ 32).toNat
  cursor := 0
  tombstone := 0
  nextAllowedReplication := curTime + rules.getAllDelay

def buildReplicate [DecidableEq Guid] (curTime : Int) (player : Guid) (request : ChangeNumbers) (count : Nat) :
    AuctionHouseObject Guid × AuctionReplicateResponse :=
  match house.getAllThrottleMap player with
  | some data =>
    if data.toChangeNumbers ≠ request then (house, .nothing)
    else if !data.isReplicationInProgress && curTime < data.nextAllowedReplication then (house, .nothing)
    else house.replicatePage rules curTime player data request.cursor count
  | none => house.replicatePage rules curTime player (newThrottle rules curTime) request.cursor count

/-! ## One page -/

variable {house rules}

variable {auction : AuctionEntry}

theorem mem_upperBound {cursor : Nat} :
    auction ∈ house.upperBound cursor ↔ auction ∈ house.auctionsMap.entries ∧ cursor < auction.id := by
  rw [upperBound, KeyedSet.dropWhile_eq_filter, List.mem_filter, decide_eq_true_iff]

theorem id_le_lastKey (h : auction ∈ house.auctionsMap.entries) :
    auction.id ≤ house.lastKey := by
  obtain ⟨before, last, hEntries⟩ := (List.eq_nil_or_concat' _).resolve_left (List.ne_nil_of_mem h)
  have hSorted := house.auctionsMap.sorted
  rw [hEntries] at hSorted h
  rw [lastKey, hEntries, List.getLast?_concat, Option.elim_some]
  rcases List.mem_append.mp h with hBefore | hLast
  · exact ((List.pairwise_append.mp hSorted).2.2 auction hBefore last (List.mem_singleton_self last)).le
  · exact (congrArg AuctionEntry.id (List.mem_singleton.mp hLast)).le

variable {curTime : Int} {cursor count : Nat}

theorem mem_available {entry : ListedAuction} :
    entry ∈ rules.available curTime (house.upperBound cursor) ↔
      ∃ auction ∈ house.auctionsMap.entries, cursor < auction.id ∧ rules.listed curTime auction = some entry := by
  rw [ReplicationRules.available, List.mem_filterMap]
  simp only [mem_upperBound, and_assoc]

theorem available_sorted (auctions : KeyedSet AuctionEntry.id) {l : List AuctionEntry}
    (h : l.Sublist auctions.entries) :
    (rules.available curTime l).Pairwise fun a b => a.auction.id < b.auction.id := by
  refine List.Pairwise.filterMap _ (fun a b hLt entry hEntry entry' hEntry' => ?_) (auctions.sorted.sublist h)
  rw [ReplicationRules.auction_listed hEntry, ReplicationRules.auction_listed hEntry']
  exact hLt

/-- The page is the front of what is available behind the cursor. -/
structure Turned (house : AuctionHouseObject Guid) (rules : ReplicationRules) (curTime : Int) (cursor count : Nat)
    (numbers : ChangeNumbers) (items : List ListedAuction) : Prop where
  items_eq : items = (rules.available curTime (house.upperBound cursor)).take count
  numbers_eq : numbers = house.numbersBehind items
    (count - (rules.available curTime (house.upperBound cursor)).length) numbers.global

namespace Turned

variable {numbers : ChangeNumbers} {items : List ListedAuction}

theorem sorted (h : Turned house rules curTime cursor count numbers items) :
    items.Pairwise fun a b => a.auction.id < b.auction.id := by
  rw [h.items_eq]
  refine (available_sorted house.auctionsMap ?_).sublist (List.take_sublist _ _)
  exact List.dropWhile_sublist _

variable {entry : ListedAuction}

theorem mem (h : Turned house rules curTime cursor count numbers items) (hMem : entry ∈ items) :
    ∃ auction ∈ house.auctionsMap.entries, cursor < auction.id ∧ rules.listed curTime auction = some entry :=
  mem_available.mp (List.mem_of_mem_take (h.items_eq ▸ hMem))

theorem cursor_spec (h : Turned house rules curTime cursor count numbers items) (hSome : items ≠ []) :
    ∃ before last, items = before ++ [last] ∧ numbers.cursor = last.auction.id := by
  obtain ⟨before, last, hItems⟩ := (List.eq_nil_or_concat' items).resolve_left hSome
  refine ⟨before, last, hItems, ?_⟩
  rw [h.numbers_eq, numbersBehind, hItems, List.getLast?_concat]
  rfl

theorem le_cursor (h : Turned house rules curTime cursor count numbers items)
    (hMem : entry ∈ items) : entry.auction.id ≤ numbers.cursor := by
  obtain ⟨before, last, hItems, hCursor⟩ := h.cursor_spec (List.ne_nil_of_mem hMem)
  have hSorted := h.sorted
  rw [hItems] at hSorted hMem
  rw [hCursor]
  rcases List.mem_append.mp hMem with hBefore | hLast
  · exact ((List.pairwise_append.mp hSorted).2.2 entry hBefore last (List.mem_singleton_self last)).le
  · rw [List.mem_singleton.mp hLast]

theorem cursor_mem (h : Turned house rules curTime cursor count numbers items) (hSome : items ≠ []) :
    ∃ auction ∈ house.auctionsMap.entries, cursor < auction.id ∧ auction.id = numbers.cursor := by
  obtain ⟨before, last, hItems, hCursor⟩ := h.cursor_spec hSome
  obtain ⟨auction, hAuction, hBehind, hListed⟩ := h.mem (hItems ▸ List.mem_append_right _ (List.mem_singleton_self last))
  refine ⟨auction, hAuction, hBehind, ?_⟩
  rw [hCursor, ReplicationRules.auction_listed hListed]

theorem mem_of_le (h : Turned house rules curTime cursor count numbers items) (hSome : items ≠ [])
    (hAvailable : entry ∈ rules.available curTime (house.upperBound cursor))
    (hLe : entry.auction.id ≤ numbers.cursor) : entry ∈ items := by
  obtain ⟨before, last, hItems, hCursor⟩ := h.cursor_spec hSome
  have hSorted : (rules.available curTime (house.upperBound cursor)).Pairwise fun a b => a.auction.id < b.auction.id :=
    available_sorted house.auctionsMap (List.dropWhile_sublist _)
  rw [← List.take_append_drop count (rules.available curTime (house.upperBound cursor)), ← h.items_eq] at hAvailable hSorted
  rcases List.mem_append.mp hAvailable with hPage | hRest
  · exact hPage
  · have hLast : last ∈ items := hItems ▸ List.mem_append_right _ (List.mem_singleton_self last)
    have hLt := (List.pairwise_append.mp hSorted).2.2 last hLast entry hRest
    omega

theorem ended_iff (h : Turned house rules curTime cursor count numbers items) (hCount : 1 ≤ count) :
    numbers.cursor = numbers.tombstone ↔ items = [] ∨ items.length = count ∧ numbers.cursor = house.lastKey := by
  have hTombstone : numbers.tombstone =
      if count - (rules.available curTime (house.upperBound cursor)).length = 0 then house.lastKey else 0 := by
    rw [h.numbers_eq]
    rfl
  have hLength : items.length = min count (rules.available curTime (house.upperBound cursor)).length := by
    rw [h.items_eq, List.length_take]
  rw [hTombstone]
  by_cases hNone : items = []
  · have hCursor : numbers.cursor = 0 := by
      rw [h.numbers_eq, hNone]
      rfl
    rw [hNone, List.length_nil] at hLength
    rw [if_neg (by omega), hCursor]
    exact iff_of_true rfl (Or.inl hNone)
  · obtain ⟨auction, hAuction, -, hId⟩ := h.cursor_mem hNone
    have hPositive := house.positive auction hAuction
    rw [or_iff_right hNone]
    split
    · exact (and_iff_right (by omega)).symm
    · exact iff_of_false (by omega) fun hFull => by omega

theorem mem_of_ended (h : Turned house rules curTime cursor count numbers items) (hCount : 1 ≤ count)
    (hEnded : numbers.cursor = numbers.tombstone)
    (hAvailable : entry ∈ rules.available curTime (house.upperBound cursor)) : entry ∈ items := by
  rcases (h.ended_iff hCount).mp hEnded with hNone | ⟨hFull, hLast⟩
  · have hEmpty := h.items_eq
    rw [hNone, eq_comm, List.take_eq_nil_iff, or_iff_right (by omega)] at hEmpty
    rw [hEmpty] at hAvailable
    exact absurd hAvailable List.not_mem_nil
  · obtain ⟨auction, hAuction, -, hListed⟩ := mem_available.mp hAvailable
    refine h.mem_of_le (List.ne_nil_of_length_pos (by omega)) hAvailable ?_
    rw [hLast, ReplicationRules.auction_listed hListed]
    exact id_le_lastKey hAuction

end Turned

/-! ## Replication page by page -/

variable [DecidableEq Guid] {player : Guid}

theorem replicatePage_turned (rules : ReplicationRules) (player : Guid) (cursor : Nat)
    (hSome : house.auctionsMap.entries ≠ []) (hCount : 1 ≤ count) (data : PlayerGetAllThrottleData) : ∃ numbers items,
      house.replicatePage rules curTime player data cursor count =
        (house.setThrottle player { data with toChangeNumbers := numbers }, ⟨numbers, items⟩) ∧
      numbers.global = data.global ∧ Turned house rules curTime cursor count numbers items := by
  have hUsed : (house.auctionsMap.entries.isEmpty || decide (count = 0)) = false := by
    rw [Bool.or_eq_false_iff, List.isEmpty_eq_false_iff, decide_eq_false_iff_not]
    exact ⟨hSome, by omega⟩
  rw [replicatePage, hUsed, ReplicationRules.page_eq _ hCount]
  exact ⟨_, _, rfl, rfl, rfl, rfl⟩

def inProgress (house : AuctionHouseObject Guid) (player : Guid) : Bool :=
  (house.getAllThrottleMap player).any PlayerGetAllThrottleData.isReplicationInProgress

/-- Calls that send the numbers of the answer before, until the replication is over. -/
def replicate (rules : ReplicationRules) (player : Guid) (house : AuctionHouseObject Guid) :
    ChangeNumbers → List ReplicateCall → AuctionHouseObject Guid × List (ReplicateCall × AuctionReplicateResponse)
  | _, [] => (house, [])
  | request, call :: calls =>
    let (house, response) := house.buildReplicate rules call.curTime player request call.count
    if house.inProgress player then
      let (house, responses) := replicate rules player house response.numbers calls
      (house, (call, response) :: responses)
    else (house, [(call, response)])

def Accepts (house : AuctionHouseObject Guid) (rules : ReplicationRules) (player : Guid) (request : ChangeNumbers)
    (curTime : Int) : Prop :=
  ∃ data : PlayerGetAllThrottleData, data.global ≠ 0 ∧ ∀ count,
    house.buildReplicate rules curTime player request count =
      house.replicatePage rules curTime player data request.cursor count

theorem setThrottle_self (house : AuctionHouseObject Guid) (player : Guid) (data : PlayerGetAllThrottleData) :
    (house.setThrottle player data).getAllThrottleMap player = some data := Function.update_self ..

variable {data : PlayerGetAllThrottleData}

theorem accepts_of_inProgress (hData : house.getAllThrottleMap player = some data)
    (hProgress : data.isReplicationInProgress = true) (curTime : Int) :
    Accepts house rules player data.toChangeNumbers curTime := by
  refine ⟨data, ?_, fun count => ?_⟩
  · rw [PlayerGetAllThrottleData.isReplicationInProgress, Bool.and_eq_true, decide_eq_true_iff, decide_eq_true_iff]
      at hProgress
    exact hProgress.2
  · simp only [buildReplicate, hData, ne_eq, not_true_eq_false, if_false, hProgress]
    rfl

variable {request : ChangeNumbers}

theorem buildReplicate_turned (hSome : house.auctionsMap.entries ≠ []) {curTime : Int}
    (hAccepts : Accepts house rules player request curTime) (hCount : 1 ≤ count) :
    ∃ data items, house.buildReplicate rules curTime player request count =
        (house.setThrottle player data, ⟨data.toChangeNumbers, items⟩) ∧
      Turned house rules curTime request.cursor count data.toChangeNumbers items ∧
      (data.isReplicationInProgress = false ↔ data.cursor = data.tombstone) := by
  obtain ⟨data, hGlobal, hBuild⟩ := hAccepts
  obtain ⟨numbers, items, hPage, hSame, hTurned⟩ :=
    replicatePage_turned rules player request.cursor hSome hCount data
  refine ⟨{ data with toChangeNumbers := numbers }, items, (hBuild count).trans hPage, hTurned, ?_⟩
  rw [PlayerGetAllThrottleData.isReplicationInProgress, Bool.and_eq_false_iff, decide_eq_false_iff_not,
    decide_eq_false_iff_not, not_not, not_not, hSame]
  exact or_iff_left hGlobal

structure Replicated (house : AuctionHouseObject Guid) (rules : ReplicationRules) (player : Guid) (cursor : Nat)
    (calls : List ReplicateCall) (after : AuctionHouseObject Guid)
    (responses : List (ReplicateCall × AuctionReplicateResponse)) : Prop where
  auctionsMap : after.auctionsMap = house.auctionsMap
  others : ∀ other, other ≠ player → after.getAllThrottleMap other = house.getAllThrottleMap other
  sorted : (responses.flatMap fun r => r.2.items).Pairwise fun a b => a.auction.id < b.auction.id
  behind : ∀ entry ∈ responses.flatMap fun r => r.2.items, cursor < entry.auction.id
  sound : ∀ curTime, (∀ call ∈ calls, curTime ≤ call.curTime) → ∀ entry ∈ responses.flatMap fun r => r.2.items,
    entry ∈ rules.available curTime (house.upperBound cursor)
  /-- When it is over, everything has come that was available up to the last call. -/
  complete : responses ≠ [] → after.inProgress player = false → ∀ curTime, (∀ call ∈ calls, call.curTime ≤ curTime) →
    ∀ entry ∈ rules.available curTime (house.upperBound cursor), entry ∈ responses.flatMap fun r => r.2.items
  stopped : (house.upperBound cursor).length < calls.length → after.inProgress player = false
  last : ∀ call response, responses.getLast? = some (call, response) →
    (after.inProgress player = false ↔
      response.items = [] ∨ response.items.length = call.count ∧ response.numbers.cursor = house.lastKey)
  numbers : ∀ call response, responses.getLast? = some (call, response) →
    ∃ data, after.getAllThrottleMap player = some data ∧ data.toChangeNumbers = response.numbers

omit [DecidableEq Guid] in
theorem Replicated.nil (house : AuctionHouseObject Guid) (rules : ReplicationRules) (player : Guid) (cursor : Nat) :
    Replicated house rules player cursor [] house [] where
  auctionsMap := rfl
  others _ _ := rfl
  sorted := List.Pairwise.nil
  behind _ h := absurd h List.not_mem_nil
  sound _ _ _ h := absurd h List.not_mem_nil
  complete h := absurd rfl h
  stopped h := absurd h (Nat.not_lt_zero _)
  last _ _ h := by cases h
  numbers _ _ h := by cases h

theorem Replicated.stop {cursor : Nat} {call : ReplicateCall}
    {items : List ListedAuction} (h : Turned house rules call.curTime cursor call.count data.toChangeNumbers items)
    (hCount : 1 ≤ call.count) (hProgress : data.isReplicationInProgress = false ↔ data.cursor = data.tombstone)
    (hOver : data.isReplicationInProgress = false) (calls : List ReplicateCall) :
    Replicated house rules player cursor (call :: calls) (house.setThrottle player data)
      [(call, ⟨data.toChangeNumbers, items⟩)] := by
  have hAfter : (house.setThrottle player data).inProgress player = false := by
    rw [inProgress, setThrottle_self]
    exact hOver
  have hItems : ([(call, ⟨data.toChangeNumbers, items⟩)].flatMap fun
      r : ReplicateCall × AuctionReplicateResponse => r.2.items) = items := List.flatMap_singleton ..
  refine ⟨rfl, fun other hOther => Function.update_of_ne hOther _ _, ?_, ?_, ?_, ?_, fun _ => hAfter, ?_, ?_⟩
  · rw [hItems]
    exact h.sorted
  · intro entry hEntry
    rw [hItems] at hEntry
    obtain ⟨auction, -, hBehind, hListed⟩ := h.mem hEntry
    rwa [ReplicationRules.auction_listed hListed]
  · intro curTime hTimes entry hEntry
    rw [hItems] at hEntry
    obtain ⟨auction, hAuction, hBehind, hListed⟩ := h.mem hEntry
    exact mem_available.mpr ⟨auction, hAuction, hBehind,
      ReplicationRules.listed_mono (hTimes call List.mem_cons_self) hListed⟩
  · intro _ _ curTime hTimes entry hEntry
    rw [hItems]
    obtain ⟨auction, hAuction, hBehind, hListed⟩ := mem_available.mp hEntry
    exact h.mem_of_ended hCount (hProgress.mp hOver) (mem_available.mpr ⟨auction, hAuction, hBehind,
      ReplicationRules.listed_mono (hTimes call List.mem_cons_self) hListed⟩)
  · intro last response hLast
    obtain ⟨rfl, rfl⟩ := Prod.mk.inj (Option.some.inj hLast)
    exact iff_of_true hAfter ((h.ended_iff hCount).mp (hProgress.mp hOver))
  · intro last response hLast
    obtain ⟨rfl, rfl⟩ := Prod.mk.inj (Option.some.inj hLast)
    exact ⟨data, setThrottle_self house player data, rfl⟩

omit [DecidableEq Guid] in
theorem length_upperBound_lt {cursor later : Nat}
    (hMem : auction ∈ house.auctionsMap.entries) (hBehind : cursor < auction.id) (hLater : auction.id ≤ later) :
    (house.upperBound later).length < (house.upperBound cursor).length := by
  have hFilter : house.upperBound later = (house.upperBound cursor).filter fun auction => later < auction.id := by
    rw [upperBound, upperBound, KeyedSet.dropWhile_eq_filter, KeyedSet.dropWhile_eq_filter, List.filter_filter]
    refine List.filter_congr fun other _ => ?_
    rw [← Bool.decide_and, decide_eq_decide]
    omega
  rw [hFilter, List.length_filter_lt_length_iff_exists]
  exact ⟨auction, mem_upperBound.mpr ⟨hMem, hBehind⟩, by simpa using hLater⟩

theorem Replicated.more {cursor : Nat} {call : ReplicateCall}
    {items : List ListedAuction} (h : Turned house rules call.curTime cursor call.count data.toChangeNumbers items)
    (hCount : 1 ≤ call.count) (hProgress : data.isReplicationInProgress = false ↔ data.cursor = data.tombstone)
    (hOn : data.isReplicationInProgress = true) {calls : List ReplicateCall} {after : AuctionHouseObject Guid}
    {responses : List (ReplicateCall × AuctionReplicateResponse)}
    (hRest : Replicated (house.setThrottle player data) rules player data.cursor calls after responses)
    (hNone : responses = [] → after = house.setThrottle player data) :
    Replicated house rules player cursor (call :: calls) after ((call, ⟨data.toChangeNumbers, items⟩) :: responses) := by
  have hNotEnded : ¬ (items = [] ∨ items.length = call.count ∧ data.cursor = house.lastKey) := by
    rw [← h.ended_iff hCount, ← hProgress, hOn]
    exact Bool.false_ne_true.symm
  have hSome : items ≠ [] := fun hNil => hNotEnded (Or.inl hNil)
  obtain ⟨lastAuction, hLastMem, hLastBehind, hLastId⟩ := h.cursor_mem hSome
  refine ⟨hRest.auctionsMap, fun other hOther => ?_, ?_, ?_, ?_, ?_, fun hMany => ?_, ?_, ?_⟩
  · exact (hRest.others other hOther).trans (Function.update_of_ne hOther _ _)
  · rw [List.flatMap_cons]
    refine List.pairwise_append.mpr ⟨h.sorted, hRest.sorted, fun entry hEntry later hLater => ?_⟩
    exact (h.le_cursor hEntry).trans_lt (hRest.behind later hLater)
  · intro entry hEntry
    rw [List.flatMap_cons] at hEntry
    rcases List.mem_append.mp hEntry with hPage | hLater
    · obtain ⟨auction, -, hBehind, hListed⟩ := h.mem hPage
      rwa [ReplicationRules.auction_listed hListed]
    · have hBehind := hRest.behind entry hLater
      omega
  · intro curTime hTimes entry hEntry
    rw [List.flatMap_cons] at hEntry
    rcases List.mem_append.mp hEntry with hPage | hLater
    · obtain ⟨auction, hAuction, hBehind, hListed⟩ := h.mem hPage
      exact mem_available.mpr ⟨auction, hAuction, hBehind,
        ReplicationRules.listed_mono (hTimes call List.mem_cons_self) hListed⟩
    · have hSound := hRest.sound curTime (fun other hOther => hTimes other (List.mem_cons_of_mem _ hOther)) entry hLater
      obtain ⟨auction, hAuction, hBehind, hListed⟩ := mem_available.mp hSound
      exact mem_available.mpr ⟨auction, hAuction, by omega, hListed⟩
  · intro _ hOver curTime hTimes entry hEntry
    rw [List.flatMap_cons]
    obtain ⟨auction, hAuction, hBehind, hListed⟩ := mem_available.mp hEntry
    rcases Nat.lt_or_ge data.cursor auction.id with hLater | hHere
    · have hAnswered : responses ≠ [] := by
        intro hNil
        rw [hNone hNil, inProgress, setThrottle_self, Option.any_some, hOn] at hOver
        cases hOver
      exact List.mem_append_right _ (hRest.complete hAnswered hOver curTime
        (fun other hOther => hTimes other (List.mem_cons_of_mem _ hOther)) entry
        (mem_available.mpr ⟨auction, hAuction, hLater, hListed⟩))
    · refine List.mem_append_left _ (h.mem_of_le hSome (mem_available.mpr ⟨auction, hAuction, hBehind,
        ReplicationRules.listed_mono (hTimes call List.mem_cons_self) hListed⟩) ?_)
      rwa [ReplicationRules.auction_listed hListed]
  · have hLess := length_upperBound_lt hLastMem hLastBehind hLastId.le
    rw [List.length_cons] at hMany
    exact hRest.stopped (by change (house.upperBound data.cursor).length < _; omega)
  · intro last response hLast
    cases responses with
    | nil =>
      obtain ⟨rfl, rfl⟩ := Prod.mk.inj (Option.some.inj hLast)
      rw [hNone rfl, inProgress, setThrottle_self]
      exact iff_of_false (by rw [Option.any_some, hOn]; exact Bool.false_ne_true.symm) hNotEnded
    | cons first rest =>
      rw [List.getLast?_cons_cons] at hLast
      exact hRest.last last response hLast
  · intro last response hLast
    cases responses with
    | nil =>
      obtain ⟨rfl, rfl⟩ := Prod.mk.inj (Option.some.inj hLast)
      rw [hNone rfl]
      exact ⟨data, setThrottle_self house player data, rfl⟩
    | cons first rest =>
      rw [List.getLast?_cons_cons] at hLast
      exact hRest.numbers last response hLast

theorem replicate_spec (rules : ReplicationRules) (player : Guid) {calls : List ReplicateCall}
    (hCounts : ∀ call ∈ calls, 1 ≤ call.count) {house : AuctionHouseObject Guid}
    (hSome : house.auctionsMap.entries ≠ [])
    (hAccepts : ∀ call ∈ calls.head?, Accepts house rules player request call.curTime) :
    Replicated house rules player request.cursor calls (house.replicate rules player request calls).1
      (house.replicate rules player request calls).2 ∧
    ((house.replicate rules player request calls).2 = [] → (house.replicate rules player request calls).1 = house) := by
  induction calls generalizing house request with
  | nil => exact ⟨Replicated.nil house rules player request.cursor, fun _ => rfl⟩
  | cons call calls ih =>
    have hCount := hCounts call List.mem_cons_self
    obtain ⟨data, items, hBuild, hTurned, hProgress⟩ := buildReplicate_turned hSome (hAccepts call rfl) hCount
    rw [replicate, hBuild]
    simp only [inProgress, setThrottle_self, Option.any_some]
    cases hOn : data.isReplicationInProgress with
    | true =>
      have hSome' : (house.setThrottle player data).auctionsMap.entries ≠ [] := hSome
      have hNext : ∀ next ∈ calls.head?,
          Accepts (house.setThrottle player data) rules player data.toChangeNumbers next.curTime :=
        fun next _ => accepts_of_inProgress (setThrottle_self house player data) hOn next.curTime
      obtain ⟨hRest, hNone⟩ := ih (fun other hOther => hCounts other (List.mem_cons_of_mem _ hOther)) hSome' hNext
      exact ⟨Replicated.more hTurned hCount hProgress hOn hRest hNone, fun hNil => absurd hNil (List.cons_ne_nil _ _)⟩
    | false =>
      exact ⟨Replicated.stop hTurned hCount hProgress hOn calls, fun hNil => absurd hNil (List.cons_ne_nil _ _)⟩

/-! ## A fresh replication -/

/-- The player has not replicated yet, or may do so again, and the request has cursor 0. At a multiple of 2^32
seconds the first number of a replication would be 0. -/
def Fresh (house : AuctionHouseObject Guid) (player : Guid) (request : ChangeNumbers) (curTime : Int) : Prop :=
  request.cursor = 0 ∧
    (house.getAllThrottleMap player = none ∧ (curTime % 2 ^ 32).toNat ≠ 0 ∨
      ∃ data, house.getAllThrottleMap player = some data ∧ data.toChangeNumbers = request ∧ data.global ≠ 0 ∧
        data.isReplicationInProgress = false ∧ data.nextAllowedReplication ≤ curTime)

/-- What a replication from the start on promises of its answers. -/
structure FullyReplicated (house : AuctionHouseObject Guid) (rules : ReplicationRules) (player : Guid)
    (calls : List ReplicateCall) (after : AuctionHouseObject Guid)
    (responses : List (ReplicateCall × AuctionReplicateResponse)) : Prop where
  sorted : (responses.flatMap fun r => r.2.items).Pairwise fun a b => a.auction.id < b.auction.id
  sound : ∀ curTime, (∀ call ∈ calls, curTime ≤ call.curTime) → ∀ entry ∈ responses.flatMap fun r => r.2.items,
    entry ∈ rules.available curTime house.auctionsMap.entries
  complete : after.inProgress player = false → ∀ curTime, (∀ call ∈ calls, call.curTime ≤ curTime) →
    ∀ entry ∈ rules.available curTime house.auctionsMap.entries, entry ∈ responses.flatMap fun r => r.2.items
  /-- While nothing expires, the answers hold exactly what is available. -/
  exact : after.inProgress player = false → ∀ curTime, (∀ call ∈ calls, call.curTime = curTime) →
    (responses.flatMap fun r => r.2.items) = rules.available curTime house.auctionsMap.entries
  stopped : house.auctionsMap.entries.length < calls.length → after.inProgress player = false
  /-- The end comes with an empty page, or with a full one whose last auction has the greatest id of all. -/
  last : ∀ call response, responses.getLast? = some (call, response) →
    (after.inProgress player = false ↔
      response.items = [] ∨ response.items.length = call.count ∧ response.numbers.cursor = house.lastKey)
  /-- Behind the page with the last available auction there is at most one page, which is empty. -/
  idle : ∀ before call response, responses = before ++ [(call, response)] → ∀ curTime,
    (∀ call ∈ calls, call.curTime = curTime) →
    (∀ entry ∈ rules.available curTime house.auctionsMap.entries, entry ∈ before.flatMap fun r => r.2.items) →
    response.items = []
  refused : ∀ call response, responses.getLast? = some (call, response) → ∀ request curTime count,
    request ≠ response.numbers → after.buildReplicate rules curTime player request count = (after, .nothing)

omit [DecidableEq Guid] in
theorem upperBound_zero (house : AuctionHouseObject Guid) : house.upperBound 0 = house.auctionsMap.entries := by
  rw [upperBound, KeyedSet.dropWhile_eq_filter, List.filter_eq_self]
  exact fun auction hMem => decide_eq_true (house.positive auction hMem)

theorem Fresh.accepts (rules : ReplicationRules) {curTime : Int} (h : Fresh house player request curTime) :
    ∃ data : PlayerGetAllThrottleData, data.global ≠ 0 ∧ data.isReplicationInProgress = false ∧ ∀ count,
      house.buildReplicate rules curTime player request count =
        house.replicatePage rules curTime player data request.cursor count := by
  obtain ⟨-, ⟨hNone, hGlobal⟩ | ⟨data, hData, rfl, hGlobal, hIdle, hAllowed⟩⟩ := h
  · exact ⟨newThrottle rules curTime, hGlobal, rfl, fun count => by rw [buildReplicate, hNone]⟩
  · refine ⟨data, hGlobal, hIdle, fun count => ?_⟩
    simp only [buildReplicate, hData, ne_eq, not_true_eq_false, if_false, hIdle, Bool.not_false, Bool.true_and,
      decide_eq_true_iff, if_neg (not_lt.mpr hAllowed)]

theorem refused_of_numbers (hData : house.getAllThrottleMap player = some data) (h : request ≠ data.toChangeNumbers)
    (curTime : Int) (count : Nat) :
    house.buildReplicate rules curTime player request count = (house, .nothing) := by
  rw [buildReplicate, hData]
  exact if_pos h.symm

theorem refused_of_empty (hData : house.getAllThrottleMap player = some data)
    (hNone : house.auctionsMap.entries = []) (request : ChangeNumbers) (curTime : Int) (count : Nat) :
    house.buildReplicate rules curTime player request count = (house, .nothing) := by
  have hSame : house.setThrottle player data = house := by
    rw [setThrottle, ← hData, Function.update_eq_self]
  rw [buildReplicate, hData]
  simp only [replicatePage, hNone, List.isEmpty_nil, Bool.true_or, if_true, hSame, ite_self]

omit [DecidableEq Guid] in
theorem eq_of_sorted {first second : List ListedAuction}
    (hFirst : first.Pairwise fun a b => a.auction.id < b.auction.id)
    (hSecond : second.Pairwise fun a b => a.auction.id < b.auction.id) (h : ∀ entry, entry ∈ first ↔ entry ∈ second) :
    first = second := by
  have hNodup : ∀ {l : List ListedAuction}, (l.Pairwise fun a b => a.auction.id < b.auction.id) → l.Nodup :=
    fun hSorted => hSorted.imp fun {a b} hLt hSame => absurd (congrArg (fun e => e.auction.id) hSame) hLt.ne
  refine List.Perm.eq_of_pairwise (fun a b _ _ hLt hGt => absurd hGt hLt.asymm) hFirst hSecond ?_
  exact (List.perm_ext_iff_of_nodup (hNodup hFirst) (hNodup hSecond)).mpr h

theorem replicate_fresh (house : AuctionHouseObject Guid) (rules : ReplicationRules) (player : Guid)
    (request : ChangeNumbers) (call : ReplicateCall) (calls : List ReplicateCall)
    (hCounts : ∀ c ∈ call :: calls, 1 ≤ c.count) (hFresh : Fresh house player request call.curTime) :
    FullyReplicated house rules player (call :: calls) (house.replicate rules player request (call :: calls)).1
      (house.replicate rules player request (call :: calls)).2 := by
  obtain ⟨data, hGlobal, hIdle, hBuild⟩ := hFresh.accepts rules
  by_cases hNone : house.auctionsMap.entries = []
  · have hAnswer : house.replicate rules player request (call :: calls) =
        (house.setThrottle player data, [(call, .nothing)]) := by
      rw [replicate, hBuild]
      simp only [replicatePage, hNone, List.isEmpty_nil, Bool.true_or, if_true, inProgress, setThrottle_self,
        Option.any_some, hIdle, Bool.false_eq_true, if_false]
    have hOver : (house.setThrottle player data).inProgress player = false := by
      rw [inProgress, setThrottle_self]
      exact hIdle
    rw [hAnswer]
    refine ⟨List.Pairwise.nil, fun _ _ entry h => absurd h List.not_mem_nil, fun _ curTime _ entry hEntry => ?_,
      fun _ _ _ => ?_, fun _ => hOver, fun last response hLast => ?_, fun before last response hEnd _ _ _ => ?_,
      fun last response _ other curTime count _ => ?_⟩
    · rw [hNone] at hEntry
      exact absurd hEntry List.not_mem_nil
    · rw [hNone]
      rfl
    · obtain ⟨rfl, rfl⟩ := Prod.mk.inj (Option.some.inj hLast)
      exact iff_of_true hOver (Or.inl rfl)
    · obtain ⟨-, hSame⟩ := List.append_inj' (hEnd.symm.trans (List.nil_append _).symm) rfl
      obtain ⟨-, rfl⟩ := Prod.mk.inj (List.cons.inj hSame).1
      rfl
    · exact refused_of_empty (setThrottle_self house player data) hNone other curTime count
  · have hAccepts : ∀ first ∈ (call :: calls).head?, Accepts house rules player request first.curTime := by
      intro first hFirst
      obtain rfl := Option.some.inj hFirst
      exact ⟨data, hGlobal, hBuild⟩
    obtain ⟨hRun, hAnswered⟩ := replicate_spec rules player hCounts hNone hAccepts
    have hAll : house.upperBound request.cursor = house.auctionsMap.entries := by
      rw [hFresh.1, upperBound_zero]
    have hSome : (house.replicate rules player request (call :: calls)).2 ≠ [] := by
      rw [replicate]
      dsimp only
      split <;> exact List.cons_ne_nil _ _
    obtain ⟨-, -, hSorted, -, hSound, hComplete, hOver, hLast, hNumbers⟩ := hRun
    rw [hAll] at hSound hComplete hOver
    refine ⟨hSorted, hSound, hComplete hSome, fun hEnd curTime hTimes => ?_, hOver, hLast,
      fun before last response hEnd curTime hTimes hDone => ?_, fun last response hEnd other curTime count hOther => ?_⟩
    · refine eq_of_sorted hSorted (available_sorted house.auctionsMap (List.Sublist.refl _)) fun entry => ⟨?_, ?_⟩
      · exact hSound curTime (fun c hc => (hTimes c hc).ge) entry
      · exact hComplete hSome hEnd curTime (fun c hc => (hTimes c hc).le) entry
    · refine List.eq_nil_iff_forall_not_mem.mpr fun entry hEntry => ?_
      rw [hEnd, List.flatMap_append, List.flatMap_singleton] at hSorted hSound
      have hTwice := hDone entry (hSound curTime (fun c hc => (hTimes c hc).ge) entry (List.mem_append_right _ hEntry))
      exact lt_irrefl _ ((List.pairwise_append.mp hSorted).2.2 entry hTwice entry hEntry)
    · obtain ⟨kept, hKept, hSame⟩ := hNumbers last response hEnd
      exact refused_of_numbers hKept (hSame ▸ hOther) curTime count

def auctionOf (id : Nat) : AuctionEntry := ⟨id, .horde, 0, id, 0, 1, 0, 0, 0, 0, 200, 0, 0, 0, 0⟩

def threeAuctions : AuctionHouseObject Unit where
  auctionsMap := ⟨[auctionOf 1, auctionOf 2, auctionOf 5], by decide⟩
  positive := by decide
  getAllThrottleMap := fun _ => none

def itemsBelowFive : ReplicationRules := ⟨fun guid => if guid < 5 then some ⟨guid, 1⟩ else none, 60⟩

theorem replicate_threeAuctions : FullyReplicated threeAuctions itemsBelowFive () [⟨100, 1⟩, ⟨100, 1⟩]
    (threeAuctions.replicate itemsBelowFive () ⟨0, 0, 0⟩ [⟨100, 1⟩, ⟨100, 1⟩]).1
    (threeAuctions.replicate itemsBelowFive () ⟨0, 0, 0⟩ [⟨100, 1⟩, ⟨100, 1⟩]).2 :=
  replicate_fresh threeAuctions itemsBelowFive () ⟨0, 0, 0⟩ ⟨100, 1⟩ [⟨100, 1⟩] (by decide) ⟨rfl, Or.inl ⟨rfl, by decide⟩⟩

def pageAtZero : AuctionHouseObject Unit × AuctionReplicateResponse :=
  threeAuctions.buildReplicate itemsBelowFive 0 () ⟨0, 0, 0⟩ 1

/-- A page that is not full and one that does not reach the last auction leave the replication going on though
they bring all that is available, and from a multiple of 2^32 seconds on nothing comes behind the first page. -/
theorem replication_goes_on :
    (threeAuctions.replicate itemsBelowFive () ⟨0, 0, 0⟩ [⟨100, 3⟩]).1.inProgress () = true ∧
    ((threeAuctions.replicate itemsBelowFive () ⟨0, 0, 0⟩ [⟨100, 3⟩]).2.flatMap fun r => r.2.items) =
      itemsBelowFive.available 100 threeAuctions.auctionsMap.entries ∧
    (threeAuctions.replicate itemsBelowFive () ⟨0, 0, 0⟩ [⟨100, 2⟩]).1.inProgress () = true ∧
    ((threeAuctions.replicate itemsBelowFive () ⟨0, 0, 0⟩ [⟨100, 2⟩]).2.flatMap fun r => r.2.items) =
      itemsBelowFive.available 100 threeAuctions.auctionsMap.entries ∧
    pageAtZero.2.items.length = 1 ∧
    pageAtZero.1.buildReplicate itemsBelowFive 0 () pageAtZero.2.numbers 1 = (pageAtZero.1, .nothing) := by
  refine ⟨by decide, by decide, by decide, by decide, by decide, ?_⟩
  rfl

end AuctionHouseObject

end AshamaneCore.Auctions
