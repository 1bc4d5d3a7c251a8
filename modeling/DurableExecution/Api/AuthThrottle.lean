import Mathlib.Algebra.Order.Field.Rat
import Mathlib.Algebra.Order.Floor.Ring
import Mathlib.Data.List.Induction
import Mathlib.Data.Rat.Floor
import Mathlib.Tactic.Linarith
import DurableExecution.Order.InsertionMap

/-
This file models the throttle of failed authentications, and shows for which requests the window that it forgets is the one
that was opened first.
-/

namespace DurableExecution.Api

open DurableExecution.Order

section Throttle

structure FailureWindow where
  count : Nat
  resetAt : Rat
  deriving DecidableEq

abbrev Failures := InsertionMap String FailureWindow

structure ThrottleOptions where
  maxFailures : Nat
  windowMs : Rat

def maxTrackedAddresses : Nat := 10000

/-- The outcome of looking a token up among the api keys. -/
inductive Lookup where
  | found (namespaceId : String)
  | unknown
  | fails

/-- A request with the readings of the clock that it takes. A request for the metrics shows whether its token is accepted. -/
inductive Credentials where
  | api (token : Option String) (lookup : Lookup)
  | metrics (accepted : Bool)

structure Request where
  address : String
  credentials : Credentials
  checkedAt : Rat
  repliedAt : Rat
  failedAt : Rat

inductive Reply where
  | tooManyFailedRequests (retryAfterSeconds : Int)
  | unauthorized
  | authenticated (namespaceId : String)
  | metrics
  | fault
  deriving DecidableEq

structure Outcome where
  failures : Failures
  reply : Reply
  lookedUp : Bool

def retryAfterSecondsFor (window : FailureWindow) (now : Rat) : Int := max 1 ⌈(window.resetAt - now) / 1000⌉

/-- The answer of a request that is throttled. -/
def rejectIfThrottled (options : ThrottleOptions) (failures : Failures) (request : Request) : Option Reply :=
  match failures.get request.address with
  | none => none
  | some window =>
    if window.resetAt ≤ request.checkedAt ∨ window.count < options.maxFailures then none
    else some (.tooManyFailedRequests (retryAfterSecondsFor window request.repliedAt))

def unexpired (now : Rat) (entry : String × FailureWindow) : Bool := decide (now < entry.2.resetAt)

/-- Where the table is full, the expired windows are left out, or else the first entry. -/
def makeRoom (now : Rat) (failures : Failures) : Failures :=
  if maxTrackedAddresses ≤ failures.size then
    let purged := failures.filter (unexpired now)
    match purged.entries.head? with
    | none => purged
    | some oldest => if maxTrackedAddresses ≤ purged.size then purged.erase oldest.1 else purged
  else failures

def openWindow (options : ThrottleOptions) (address : String) (now : Rat) (failures : Failures) : Failures :=
  (makeRoom now failures).set address ⟨1, now + options.windowMs⟩

def recordFailure (options : ThrottleOptions) (address : String) (now : Rat) (failures : Failures) : Failures :=
  match failures.get address with
  | none => openWindow options address now failures
  | some existing =>
    if now < existing.resetAt then failures.set address { existing with count := existing.count + 1 }
    else openWindow options address now failures

def authenticate (options : ThrottleOptions) (failures : Failures) (request : Request) (token : Option String)
    (lookup : Lookup) : Outcome :=
  match rejectIfThrottled options failures request with
  | some reply => ⟨failures, reply, false⟩
  | none =>
    match token, lookup with
    | none, _ => ⟨recordFailure options request.address request.failedAt failures, .unauthorized, false⟩
    | some _, .unknown => ⟨recordFailure options request.address request.failedAt failures, .unauthorized, true⟩
    | some _, .found namespaceId => ⟨failures, .authenticated namespaceId, true⟩
    | some _, .fails => ⟨failures, .fault, true⟩

/-- The listener's part in the throttle: a request for the metrics is throttled only when its token is not accepted. -/
def handleRequest (options : ThrottleOptions) (failures : Failures) (request : Request) : Outcome :=
  match request.credentials with
  | .api token lookup => authenticate options failures request token lookup
  | .metrics true => ⟨failures, .metrics, false⟩
  | .metrics false =>
    match rejectIfThrottled options failures request with
    | some reply => ⟨failures, reply, false⟩
    | none => ⟨recordFailure options request.address request.failedAt failures, .unauthorized, false⟩

def Reply.refuses : Reply → Bool
  | .unauthorized => true
  | _ => false

/-- What happened to an address: it failed at a time, or its window was evicted before it ended. -/
inductive Happening where
  | failed (address : String) (at' : Rat)
  | evicted (address : String)

/-- The table after some requests, with what happened, the latest first. -/
structure Throttle where
  failures : Failures
  past : List Happening

/-- The addresses whose windows have not expired and are not in the table any more. -/
def evictedAddresses (now : Rat) (before after : Failures) : List String :=
  (before.filter (unexpired now)).keys.filter fun address => decide (address ∉ after.keys)

def Throttle.step (options : ThrottleOptions) (throttle : Throttle) (request : Request) : Throttle :=
  let outcome := handleRequest options throttle.failures request
  ⟨outcome.failures,
    if outcome.reply.refuses then .failed request.address request.failedAt ::
      ((evictedAddresses request.failedAt throttle.failures outcome.failures).map .evicted ++ throttle.past)
    else throttle.past⟩

def Throttle.run (options : ThrottleOptions) (requests : List Request) : Throttle :=
  requests.foldl (Throttle.step options) ⟨.empty, []⟩

end Throttle

section Windows

variable {options : ThrottleOptions} {failures result : Failures} {request : Request} {past : List Happening}
  {address : String} {now : Rat}

/-- The current window of an address. Its `opening` counts what happened before it was opened. -/
structure Window where
  count : Nat
  openedAt : Rat
  opening : Nat
  deriving DecidableEq

def Window.endsAt (options : ThrottleOptions) (window : Window) : Rat := window.openedAt + options.windowMs

def Window.failureWindow (options : ThrottleOptions) (window : Window) : FailureWindow := ⟨window.count, window.endsAt options⟩

/-- The current window of an address, from what happened alone: a failure counts in the window that has not ended, and
opens one otherwise. -/
def windowOf (options : ThrottleOptions) : List Happening → String → Option Window
  | [], _ => none
  | .evicted gone :: past, address => if address = gone then none else windowOf options past address
  | .failed failing now :: past, address =>
    if address = failing then
      match windowOf options past address with
      | none => some ⟨1, now, past.length⟩
      | some window =>
        if now < window.endsAt options then some { window with count := window.count + 1 } else some ⟨1, now, past.length⟩
    else windowOf options past address

theorem windowOf_evicted (gone : List String) (past : List Happening) (address : String) :
    windowOf options (gone.map .evicted ++ past) address = if address ∈ gone then none else windowOf options past address := by
  induction gone with
  | nil => simp
  | cons first gone ih =>
    rw [List.map_cons, List.cons_append, windowOf, ih]
    by_cases same : address = first
    · simp [same]
    · simp [same]

theorem opening_lt {window : Window} (current : windowOf options past address = some window) : window.opening < past.length := by
  induction past generalizing window with
  | nil => cases current
  | cons happening past ih =>
    rw [List.length_cons]
    cases happening with
    | evicted gone =>
      rw [windowOf] at current
      split at current
      · cases current
      · exact Nat.lt_succ_of_lt (ih current)
    | failed failing now =>
      rw [windowOf] at current
      split at current
      · split at current
        · cases current
          exact Nat.lt_succ_self _
        · next earlier known =>
            split at current
            · cases current
              have before : earlier.opening < past.length := ih known
              exact Nat.lt_succ_of_lt before
            · cases current
              exact Nat.lt_succ_self _
      · exact Nat.lt_succ_of_lt (ih current)

/-- The credentials that are missing or wrong. -/
def Credentials.refused : Credentials → Bool
  | .api none _ => true
  | .api (some _) .unknown => true
  | .metrics accepted => !accepted
  | _ => false

/-- The credentials that the throttle looks at before they are used. -/
def Credentials.throttled : Credentials → Bool
  | .metrics accepted => !accepted
  | _ => true

theorem handleRequest_throttled {reply : Reply} (looked : request.credentials.throttled = true)
    (rejected : rejectIfThrottled options failures request = some reply) :
    handleRequest options failures request = ⟨failures, reply, false⟩ := by
  rw [handleRequest]
  cases shown : request.credentials with
  | api token lookup =>
    dsimp only
    rw [authenticate.eq_def, rejected]
  | metrics accepted =>
    rw [shown] at looked
    cases accepted with
    | true => cases looked
    | false =>
      dsimp only
      rw [rejected]

/-- What a request records: a failure when its credentials are refused and it is not throttled, and nothing otherwise. -/
theorem handleRequest_records (options : ThrottleOptions) (failures : Failures) (request : Request) :
    (request.credentials.refused = true ∧ rejectIfThrottled options failures request = none ∧
        (handleRequest options failures request).reply.refuses = true ∧
        (handleRequest options failures request).failures = recordFailure options request.address request.failedAt failures) ∨
      (¬(request.credentials.refused = true ∧ rejectIfThrottled options failures request = none) ∧
        (handleRequest options failures request).reply.refuses = false ∧ (handleRequest options failures request).failures = failures) := by
  cases rejected : rejectIfThrottled options failures request with
  | some reply =>
    refine .inr ⟨fun both => (nomatch both.2), ?_⟩
    have shape : reply.refuses = false := by
      unfold rejectIfThrottled at rejected
      split at rejected
      · cases rejected
      · split at rejected
        · cases rejected
        · cases rejected
          rfl
    by_cases looked : request.credentials.throttled = true
    · rw [handleRequest_throttled looked rejected]
      exact ⟨shape, rfl⟩
    · rw [handleRequest]
      cases shown : request.credentials with
      | api token lookup => exact absurd (congrArg Credentials.throttled shown) looked
      | metrics accepted =>
        rw [shown] at looked
        cases accepted with
        | true => exact ⟨rfl, rfl⟩
        | false => exact absurd rfl looked
  | none =>
    rw [handleRequest]
    cases request.credentials with
    | api token lookup =>
      dsimp only
      rw [authenticate.eq_def, rejected]
      cases token with
      | none => exact .inl ⟨rfl, rfl, rfl, rfl⟩
      | some token =>
        cases lookup with
        | unknown => exact .inl ⟨rfl, rfl, rfl, rfl⟩
        | found namespaceId => exact .inr ⟨fun both => (nomatch both.1), rfl, rfl⟩
        | fails => exact .inr ⟨fun both => (nomatch both.1), rfl, rfl⟩
    | metrics accepted =>
      cases accepted with
      | true => exact .inr ⟨fun both => (nomatch both.1), rfl, rfl⟩
      | false =>
        dsimp only
        rw [rejected]
        exact .inl ⟨rfl, rfl, rfl, rfl⟩

end Windows

section Records

variable {options : ThrottleOptions} {failures result : Failures} {address other : String} {now : Rat} {window : FailureWindow}

def opened (options : ThrottleOptions) (address : String) (now : Rat) : String × FailureWindow :=
  (address, ⟨1, now + options.windowMs⟩)

/-- The ways in which a failure changes the table. -/
inductive Recorded (options : ThrottleOptions) (address : String) (now : Rat) (failures result : Failures) : Prop
  | counted (window : FailureWindow) : (address, window) ∈ failures.entries → now < window.resetAt →
      result.entries = failures.entries.map (InsertionMap.replaced address { window with count := window.count + 1 }) →
      Recorded options address now failures result
  | appended (base : List (String × FailureWindow)) : base.Sublist failures.entries →
      (∀ entry ∈ failures.entries, unexpired now entry = true → entry ∈ base ∧ entry.1 ≠ address) →
      base.length < maxTrackedAddresses → (∀ entry ∈ base, entry.1 ≠ address) →
      result.entries = base ++ [opened options address now] → Recorded options address now failures result
  | evicted (oldest : String × FailureWindow) (base : List (String × FailureWindow)) : failures.entries = oldest :: base →
      failures.size = maxTrackedAddresses → (∀ entry ∈ failures.entries, unexpired now entry = true) →
      address ∉ failures.keys → result.entries = base ++ [opened options address now] →
      Recorded options address now failures result
  | renewed (one two : List (String × FailureWindow)) (window : FailureWindow) :
      failures.entries = one ++ (address, window) :: two → window.resetAt ≤ now → failures.size < maxTrackedAddresses →
      result.entries = one ++ opened options address now :: two → Recorded options address now failures result

theorem unexpired_iff {entry : String × FailureWindow} : unexpired now entry = true ↔ now < entry.2.resetAt := decide_eq_true_iff

theorem replaced_ne {entry : String × FailureWindow} (different : entry.1 ≠ address) :
    InsertionMap.replaced address window entry = entry := if_neg different

theorem map_replaced_ne {entries : List (String × FailureWindow)} (different : ∀ entry ∈ entries, entry.1 ≠ address) :
    entries.map (InsertionMap.replaced address window) = entries := by
  conv_rhs => rw [← List.map_id entries]
  exact List.map_congr_left fun entry listed => replaced_ne (different entry listed)

/-- The keys before and after a place are others. -/
theorem others_of_split {one two : List (String × FailureWindow)} (distinct : ((one ++ (address, window) :: two).map Prod.fst).Nodup) :
    (∀ entry ∈ one, entry.1 ≠ address) ∧ ∀ entry ∈ two, entry.1 ≠ address := by
  rw [List.map_append, List.nodup_append, List.map_cons, List.nodup_cons] at distinct
  refine ⟨fun entry listed same => distinct.2.2 entry.1 (List.mem_map_of_mem listed) address List.mem_cons_self same, ?_⟩
  intro entry listed same
  exact distinct.2.1.1 (List.mem_map.mpr ⟨entry, listed, same⟩)

theorem makeRoom_room (room : failures.size < maxTrackedAddresses) : makeRoom now failures = failures :=
  if_neg (Nat.not_le_of_lt room)

/-- A table that is full of windows that last loses the first entry. -/
theorem makeRoom_full {oldest : String × FailureWindow} {base : List (String × FailureWindow)}
    (full : maxTrackedAddresses ≤ failures.size) (lasting : ∀ entry ∈ failures.entries, unexpired now entry = true)
    (shape : failures.entries = oldest :: base) : (makeRoom now failures).entries = base := by
  have whole : (failures.filter (unexpired now)).entries = failures.entries := List.filter_eq_self.mpr lasting
  have first : (failures.filter (unexpired now)).entries = (oldest.1, oldest.2) :: base := whole.trans shape
  have still : maxTrackedAddresses ≤ (failures.filter (unexpired now)).size := by
    rw [InsertionMap.size, whole]
    exact full
  rw [makeRoom, if_pos full]
  dsimp only
  rw [first]
  dsimp only [List.head?_cons]
  rw [if_pos still]
  exact InsertionMap.erase_first first

/-- Opening a window for an address that has none that lasts. -/
theorem openWindow_recorded (bounded : failures.size ≤ maxTrackedAddresses)
    (ended : ∀ window, (address, window) ∈ failures.entries → window.resetAt ≤ now) :
    Recorded options address now failures (openWindow options address now failures) := by
  rcases Nat.lt_or_ge failures.size maxTrackedAddresses with room | full
  · rw [openWindow, makeRoom_room room]
    by_cases present : address ∈ failures.keys
    · obtain ⟨window, held⟩ := InsertionMap.mem_keys.mp present
      obtain ⟨one, two, split⟩ := List.append_of_mem held
      have distinct := failures.distinct
      rw [split] at distinct
      obtain ⟨before, after⟩ := others_of_split distinct
      refine .renewed one two window split (ended window held) room ?_
      rw [InsertionMap.set_present present, split, List.map_append, List.map_cons, map_replaced_ne before, map_replaced_ne after,
        InsertionMap.replaced, if_pos rfl]
      rfl
    · refine .appended failures.entries (List.Sublist.refl _) ?_ room ?_ (InsertionMap.set_absent present)
      · exact fun entry listed _ => ⟨listed, fun same => present (same ▸ List.mem_map_of_mem listed)⟩
      · exact fun entry listed same => present (same ▸ List.mem_map_of_mem listed)
  · have kept : ∀ entry, entry ∈ (failures.filter (unexpired now)).entries → entry.1 ≠ address := by
      rintro ⟨_, window⟩ listed rfl
      obtain ⟨held, lasting⟩ := List.mem_filter.mp listed
      exact absurd (ended window held) (not_le_of_gt (unexpired_iff.mp lasting))
    have absent : address ∉ (failures.filter (unexpired now)).keys := by
      intro listed
      obtain ⟨window, held⟩ := InsertionMap.mem_keys.mp listed
      exact kept _ held rfl
    have sub : (failures.filter (unexpired now)).entries.Sublist failures.entries := List.filter_sublist
    rcases Nat.lt_or_ge (failures.filter (unexpired now)).size maxTrackedAddresses with room | still
    · have purged : makeRoom now failures = failures.filter (unexpired now) := by
        rw [makeRoom, if_pos full]
        dsimp only
        split
        · rfl
        · exact if_neg (Nat.not_le_of_lt room)
      rw [openWindow, purged]
      refine .appended _ sub ?_ room kept (InsertionMap.set_absent absent)
      intro entry listed lasting
      have stays := List.mem_filter.mpr ⟨listed, lasting⟩
      exact ⟨stays, kept entry stays⟩
    · have whole : (failures.filter (unexpired now)).entries = failures.entries :=
        sub.eq_of_length_le (bounded.trans still)
      have lasting : ∀ entry ∈ failures.entries, unexpired now entry = true := by
        intro entry listed
        rw [← whole] at listed
        exact (List.mem_filter.mp listed).2
      have others : ∀ entry ∈ failures.entries, entry.1 ≠ address := fun entry listed => kept entry (by rw [whole]; exact listed)
      cases shape : failures.entries with
      | nil =>
        rw [InsertionMap.size, shape] at full
        exact absurd full (by decide)
      | cons oldest base =>
        have rest := makeRoom_full full lasting shape
        refine .evicted oldest base shape (Nat.le_antisymm bounded full) lasting ?_ ?_
        · intro listed
          obtain ⟨window, held⟩ := InsertionMap.mem_keys.mp listed
          exact others _ held rfl
        · rw [openWindow, InsertionMap.set_absent, rest]
          · rfl
          · intro listed
            obtain ⟨window, held⟩ := InsertionMap.mem_keys.mp listed
            rw [rest] at held
            exact others _ (by rw [shape]; exact List.mem_cons_of_mem _ held) rfl

theorem recordFailure_recorded (bounded : failures.size ≤ maxTrackedAddresses) :
    Recorded options address now failures (recordFailure options address now failures) := by
  rw [recordFailure]
  cases found : failures.get address with
  | none =>
    have absent := InsertionMap.get_eq_none.mp found
    exact openWindow_recorded bounded fun window held => absurd (InsertionMap.mem_keys.mpr ⟨window, held⟩) absent
  | some existing =>
    dsimp only
    have held := InsertionMap.get_eq_some.mp found
    split
    · next lasting =>
        exact .counted existing held lasting (InsertionMap.set_present (InsertionMap.mem_keys.mpr ⟨existing, held⟩))
    · next ended =>
        refine openWindow_recorded bounded fun window listed => ?_
        have same : window = existing := Option.some.inj ((InsertionMap.get_eq_some.mpr listed).symm.trans found)
        rw [same]
        exact not_lt.mp ended

/-- The entry of the address that failed. -/
theorem Recorded.self (recorded : Recorded options address now failures result) : ∃ window, (address, window) ∈ result.entries ∧
    ((∃ earlier, (address, earlier) ∈ failures.entries ∧ now < earlier.resetAt ∧
        window = { earlier with count := earlier.count + 1 }) ∨
      (∀ earlier, (address, earlier) ∈ failures.entries → earlier.resetAt ≤ now) ∧
        window = ⟨1, now + options.windowMs⟩) := by
  cases recorded with
  | counted earlier held lasting shape =>
    refine ⟨_, ?_, .inl ⟨earlier, held, lasting, rfl⟩⟩
    rw [shape]
    exact List.mem_map.mpr ⟨(address, earlier), held, if_pos rfl⟩
  | appended base sub kept room others shape =>
    refine ⟨_, shape ▸ List.mem_append_right _ List.mem_cons_self, .inr ⟨fun earlier held => ?_, rfl⟩⟩
    by_contra lasting
    exact (kept _ held (unexpired_iff.mpr (not_le.mp lasting))).2 rfl
  | evicted oldest base split full lasting absent shape =>
    refine ⟨_, shape ▸ List.mem_append_right _ List.mem_cons_self, .inr ⟨fun earlier held => ?_, rfl⟩⟩
    exact absurd (InsertionMap.mem_keys.mpr ⟨earlier, held⟩) absent
  | renewed one two earlier split ended room shape =>
    refine ⟨_, shape ▸ List.mem_append_right _ List.mem_cons_self, .inr ⟨fun again held => ?_, rfl⟩⟩
    have listed : (address, earlier) ∈ failures.entries := split ▸ List.mem_append_right _ List.mem_cons_self
    have same := Option.some.inj ((InsertionMap.get_eq_some.mpr held).symm.trans (InsertionMap.get_eq_some.mpr listed))
    rw [same]
    exact ended

/-- The entries of the other addresses are as they were. -/
theorem Recorded.others (recorded : Recorded options address now failures result) {entry : String × FailureWindow}
    (different : entry.1 ≠ address) (held : entry ∈ result.entries) : entry ∈ failures.entries := by
  have notOpened : entry ≠ opened options address now := fun same => different (congrArg Prod.fst same)
  cases recorded with
  | counted earlier _ _ shape =>
    rw [shape] at held
    obtain ⟨before, listed, rfl⟩ := List.mem_map.mp held
    rw [InsertionMap.replaced_fst] at different
    rw [replaced_ne different]
    exact listed
  | appended base sub kept room others shape =>
    rw [shape] at held
    exact sub.subset ((List.mem_append.mp held).resolve_right fun last => notOpened (List.mem_singleton.mp last))
  | evicted oldest base split full lasting absent shape =>
    rw [shape] at held
    rw [split]
    exact List.mem_cons_of_mem _ ((List.mem_append.mp held).resolve_right fun last => notOpened (List.mem_singleton.mp last))
  | renewed one two earlier split ended room shape =>
    rw [shape, List.mem_append, List.mem_cons] at held
    rw [split, List.mem_append, List.mem_cons]
    rcases held with before | last | after
    · exact .inl before
    · exact absurd last notOpened
    · exact .inr (.inr after)

theorem Recorded.bounded (recorded : Recorded options address now failures result) (bounded : failures.size ≤ maxTrackedAddresses) :
    result.size ≤ maxTrackedAddresses := by
  rw [InsertionMap.size] at *
  cases recorded with
  | counted earlier _ _ shape => rwa [shape, List.length_map]
  | appended base sub kept room others shape =>
    rw [shape, List.length_append, List.length_singleton]
    exact room
  | evicted oldest base split full lasting absent shape =>
    rw [split, List.length_cons] at bounded
    rwa [shape, List.length_append, List.length_singleton]
  | renewed one two earlier split ended room shape =>
    rw [split, List.length_append, List.length_cons] at bounded
    rwa [shape, List.length_append, List.length_cons]

/-- A window that lasts is lost only when the table is full of them, and it is the first. -/
theorem Recorded.lost (recorded : Recorded options address now failures result) (held : (other, window) ∈ failures.entries)
    (lasting : now < window.resetAt) (gone : other ∉ result.keys) :
    failures.size = maxTrackedAddresses ∧ (∀ entry ∈ failures.entries, unexpired now entry = true) ∧
      ∃ base, failures.entries = (other, window) :: base := by
  have absent (entry : String × FailureWindow) (kept : entry ∈ result.entries) (same : entry.1 = other) : False :=
    gone (InsertionMap.mem_keys.mpr ⟨entry.2, same ▸ kept⟩)
  cases recorded with
  | counted earlier _ _ shape =>
    exact (absent _ (shape ▸ List.mem_map_of_mem held) (InsertionMap.replaced_fst _)).elim
  | appended base sub kept room others shape =>
    have stays := (kept _ held (unexpired_iff.mpr lasting)).1
    exact (absent _ (shape ▸ List.mem_append_left _ stays) rfl).elim
  | evicted oldest base split full lasting' notThere shape =>
    rw [split] at held
    rcases List.mem_cons.mp held with first | later
    · exact ⟨full, lasting', base, first ▸ split⟩
    · exact (absent _ (shape ▸ List.mem_append_left _ later) rfl).elim
  | renewed one two earlier split ended room shape =>
    rw [split, List.mem_append, List.mem_cons] at held
    rcases held with before | place | after
    · exact (absent _ (shape ▸ List.mem_append_left _ before) rfl).elim
    · obtain ⟨rfl, rfl⟩ := Prod.mk.inj place
      exact absurd ended (not_le_of_gt lasting)
    · exact (absent _ (shape ▸ List.mem_append_right _ (List.mem_cons_of_mem _ after)) rfl).elim

end Records

section Runs

variable {options : ThrottleOptions} {throttle : Throttle} {failures result : Failures} {past : List Happening} {request : Request}
  {address other : String} {now moment : Rat}

/-- The current window of one entry was opened before that of another. -/
def OpenedBefore (options : ThrottleOptions) (past : List Happening) (earlier later : String × FailureWindow) : Prop :=
  ∃ one two, windowOf options past earlier.1 = some one ∧ windowOf options past later.1 = some two ∧ one.opening < two.opening

/-- The table holds the current windows that have not ended at a moment. -/
structure Tracks (options : ThrottleOptions) (moment : Rat) (throttle : Throttle) : Prop where
  bounded : throttle.failures.size ≤ maxTrackedAddresses
  agrees : ∀ address (window : FailureWindow), moment < window.resetAt → ((address, window) ∈ throttle.failures.entries ↔
    ∃ current, windowOf options throttle.past address = some current ∧ current.failureWindow options = window)

/-- The entries that have not expired at a moment are in the order in which their windows were opened. -/
def Ordered (options : ThrottleOptions) (moment : Rat) (throttle : Throttle) : Prop :=
  (throttle.failures.entries.filter (unexpired moment)).Pairwise (OpenedBefore options throttle.past)

/-- A failure that renews an expired window in its place, before windows that have not expired. -/
def KeepsPlace (options : ThrottleOptions) (failures : Failures) (request : Request) : Prop :=
  (request.credentials.refused = true ∧ rejectIfThrottled options failures request = none) ∧
    failures.size < maxTrackedAddresses ∧
    ∃ one window two, failures.entries = one ++ (request.address, window) :: two ∧ window.resetAt ≤ request.failedAt ∧
      ∃ entry ∈ two, unexpired request.failedAt entry = true

theorem Tracks.mono (tracks : Tracks options now throttle) (later : now ≤ moment) : Tracks options moment throttle :=
  ⟨tracks.bounded, fun address window lasting => tracks.agrees address window (lt_of_le_of_lt later lasting)⟩

theorem unexpired_mono {entry : String × FailureWindow} (later : now ≤ moment) (lasting : unexpired moment entry = true) :
    unexpired now entry = true :=
  unexpired_iff.mpr (lt_of_le_of_lt later (unexpired_iff.mp lasting))

theorem Ordered.mono (ordered : Ordered options now throttle) (later : now ≤ moment) : Ordered options moment throttle :=
  ordered.sublist (List.monotone_filter_right _ fun _ lasting => unexpired_mono later lasting)

/-- What happened after a failure at a time. -/
def afterFailure (address : String) (now : Rat) (failures result : Failures) (past : List Happening) : List Happening :=
  .failed address now :: ((evictedAddresses now failures result).map .evicted ++ past)

theorem Throttle.step_cases (options : ThrottleOptions) (throttle : Throttle) (request : Request)
    (bounded : throttle.failures.size ≤ maxTrackedAddresses) :
    ((request.credentials.refused = true ∧ rejectIfThrottled options throttle.failures request = none) ∧ ∃ result,
        Recorded options request.address request.failedAt throttle.failures result ∧
        (handleRequest options throttle.failures request).failures = result ∧ throttle.step options request =
          ⟨result, afterFailure request.address request.failedAt throttle.failures result throttle.past⟩) ∨
      (handleRequest options throttle.failures request).failures = throttle.failures ∧ throttle.step options request = throttle := by
  rcases handleRequest_records options throttle.failures request with ⟨refused, seen, refuses, same⟩ | ⟨-, refuses, same⟩
  · refine .inl ⟨⟨refused, seen⟩, _, recordFailure_recorded bounded, same, ?_⟩
    rw [Throttle.step, refuses, same]
    rfl
  · refine .inr ⟨same, ?_⟩
    rw [Throttle.step, refuses, same]
    rfl

theorem mem_evictedAddresses : address ∈ evictedAddresses now failures result ↔
    (∃ window : FailureWindow, (address, window) ∈ failures.entries ∧ now < window.resetAt) ∧ address ∉ result.keys := by
  rw [evictedAddresses, List.mem_filter, decide_eq_true_eq, InsertionMap.mem_keys]
  refine and_congr (exists_congr fun window => ?_) Iff.rfl
  exact List.mem_filter.trans (and_congr Iff.rfl unexpired_iff)

/-- The current windows of the other addresses that the table still has. -/
theorem windowOf_others (different : other ≠ address) (kept : other ∈ result.keys) :
    windowOf options (afterFailure address now failures result past) other = windowOf options past other := by
  rw [afterFailure, windowOf, if_neg different, windowOf_evicted, if_neg]
  exact fun listed => (mem_evictedAddresses.mp listed).2 kept

theorem windowOf_self (kept : address ∈ result.keys) : windowOf options (afterFailure address now failures result past) address =
    match windowOf options past address with
    | none => some ⟨1, now, ((evictedAddresses now failures result).map Happening.evicted ++ past).length⟩
    | some window =>
      if now < window.endsAt options then some { window with count := window.count + 1 }
      else some ⟨1, now, ((evictedAddresses now failures result).map Happening.evicted ++ past).length⟩ := by
  rw [afterFailure, windowOf, if_pos rfl, windowOf_evicted, if_neg]
  exact fun listed => (mem_evictedAddresses.mp listed).2 kept

/-- The current window that a failure counted in, or opened. -/
theorem Tracks.current (tracks : Tracks options now ⟨failures, past⟩) (recorded : Recorded options address now failures result) :
    ∃ current, windowOf options (afterFailure address now failures result past) address = some current ∧
      (address, current.failureWindow options) ∈ result.entries ∧
      (∀ window earlier, (address, window) ∈ failures.entries → now < window.resetAt →
        windowOf options past address = some earlier → current.opening = earlier.opening) ∧
      ((∀ window, (address, window) ∈ failures.entries → window.resetAt ≤ now) → past.length ≤ current.opening) := by
  obtain ⟨window, held, shape⟩ := recorded.self
  rw [windowOf_self (InsertionMap.mem_keys.mpr ⟨window, held⟩)]
  have later : past.length ≤ ((evictedAddresses now failures result).map Happening.evicted ++ past).length := by
    rw [List.length_append]
    exact Nat.le_add_left _ _
  rcases shape with ⟨earlier, listed, lasting, rfl⟩ | ⟨ended, rfl⟩
  · obtain ⟨current, known, same⟩ := (tracks.agrees address earlier lasting).mp listed
    rw [known]
    subst same
    refine ⟨_, if_pos lasting, held, fun _ again _ _ equal => ?_, fun ended => ?_⟩
    · cases equal
      rfl
    · exact absurd (ended _ listed) (not_le_of_gt lasting)
  · have none' (window : FailureWindow) (earlier : Window) (listed : (address, window) ∈ failures.entries)
        (lasting : now < window.resetAt) (opening : Nat) : opening = earlier.opening := absurd (ended window listed) (not_le_of_gt lasting)
    cases known : windowOf options past address with
    | none => exact ⟨_, rfl, held, fun window earlier listed lasting _ => none' window earlier listed lasting _, fun _ => later⟩
    | some current =>
      refine ⟨_, if_neg fun lasting => ?_, held, fun window earlier listed lasting _ => none' window earlier listed lasting _,
        fun _ => later⟩
      have listed := (tracks.agrees address (current.failureWindow options) lasting).mpr ⟨current, known, rfl⟩
      exact absurd (ended _ listed) (not_le_of_gt lasting)

/-- A failure keeps track. -/
theorem Tracks.recorded (tracks : Tracks options now ⟨failures, past⟩) (recorded : Recorded options address now failures result) :
    Tracks options now ⟨result, afterFailure address now failures result past⟩ := by
  refine ⟨recorded.bounded tracks.bounded, fun other window lasting => ?_⟩
  dsimp only
  obtain ⟨current, known, held, -⟩ := tracks.current recorded
  by_cases same : other = address
  · subst same
    rw [known]
    constructor
    · intro listed
      refine ⟨current, rfl, ?_⟩
      exact Option.some.inj ((InsertionMap.get_eq_some.mpr held).symm.trans (InsertionMap.get_eq_some.mpr listed))
    · rintro ⟨shown, equal, rfl⟩
      cases equal
      exact held
  · by_cases kept : other ∈ result.keys
    · rw [windowOf_others same kept, ← tracks.agrees other window lasting]
      refine ⟨recorded.others same, fun listed => ?_⟩
      obtain ⟨again, stays⟩ := InsertionMap.mem_keys.mp kept
      have before := recorded.others same stays
      have equal := Option.some.inj ((InsertionMap.get_eq_some.mpr before).symm.trans (InsertionMap.get_eq_some.mpr listed))
      exact equal ▸ stays
    · rw [afterFailure, windowOf, if_neg same, windowOf_evicted]
      refine ⟨fun listed => absurd (InsertionMap.mem_keys.mpr ⟨window, listed⟩) kept, ?_⟩
      rintro ⟨current, shown, rfl⟩
      split at shown
      · cases shown
      · next notEvicted =>
          have listed := (tracks.agrees other _ lasting).mpr ⟨current, shown, rfl⟩
          exact absurd (mem_evictedAddresses.mpr ⟨⟨_, listed, lasting⟩, kept⟩) notEvicted

/-- The entries that last after a failure, in order: as before, or with a new window at the end. -/
theorem Recorded.filter (recorded : Recorded options address now failures result)
    (places : ∀ one window two, failures.size < maxTrackedAddresses → failures.entries = one ++ (address, window) :: two →
      window.resetAt ≤ now → ∀ entry ∈ two, unexpired now entry = false) :
    (∃ window : FailureWindow, (address, window) ∈ failures.entries ∧ now < window.resetAt ∧
        result.entries = failures.entries.map (InsertionMap.replaced address { window with count := window.count + 1 })) ∨
      (∀ window, (address, window) ∈ failures.entries → window.resetAt ≤ now) ∧
      ∃ others, others.Sublist (failures.entries.filter (unexpired now)) ∧
        (∀ entry ∈ others, entry.1 ≠ address ∧ entry.1 ∈ result.keys) ∧
        (result.entries.filter (unexpired now)).Sublist (others ++ [opened options address now]) := by
  have last (entries : List (String × FailureWindow)) : (List.filter (unexpired now) entries).Sublist entries := List.filter_sublist
  have ended : (∃ window : FailureWindow, (address, window) ∈ failures.entries ∧ now < window.resetAt ∧
      result.entries = failures.entries.map (InsertionMap.replaced address { window with count := window.count + 1 })) ∨
      ∀ window, (address, window) ∈ failures.entries → window.resetAt ≤ now := by
    cases recorded with
    | counted window held lasting shape => exact .inl ⟨window, held, lasting, shape⟩
    | appended base sub kept room others shape =>
      exact .inr fun window held => not_lt.mp fun lasting => (kept _ held (unexpired_iff.mpr lasting)).2 rfl
    | evicted oldest base split full lasting absent shape =>
      exact .inr fun window held => absurd (InsertionMap.mem_keys.mpr ⟨window, held⟩) absent
    | renewed one two window split ended room shape =>
      refine .inr fun again held => ?_
      have listed : (address, window) ∈ failures.entries := split ▸ List.mem_append_right _ List.mem_cons_self
      have same := Option.some.inj ((InsertionMap.get_eq_some.mpr held).symm.trans (InsertionMap.get_eq_some.mpr listed))
      rw [same]
      exact ended
  rcases ended with counted | ended
  · exact .inl counted
  refine .inr ⟨ended, ?_⟩
  have within {others rest : List (String × FailureWindow)} (shape : result.entries = others ++ rest) :
      ∀ entry ∈ others.filter (unexpired now), entry.1 ∈ result.keys := by
    intro entry listed
    refine InsertionMap.mem_keys.mpr ⟨entry.2, ?_⟩
    rw [shape]
    exact List.mem_append_left _ ((last others).subset listed)
  cases recorded with
  | counted window held lasting shape => exact absurd (ended window held) (not_le_of_gt lasting)
  | appended base sub kept room others shape =>
    refine ⟨base.filter (unexpired now), sub.filter _,
      fun entry listed => ⟨others entry ((last base).subset listed), within shape entry listed⟩, ?_⟩
    rw [shape, List.filter_append]
    exact (List.Sublist.refl _).append (last _)
  | evicted oldest base split full lasting absent shape =>
    refine ⟨base.filter (unexpired now), ?_, ?_, ?_⟩
    · rw [split]
      exact (List.sublist_cons_self oldest base).filter _
    · refine fun entry listed => ⟨fun same => absent ?_, within shape entry listed⟩
      refine InsertionMap.mem_keys.mpr ⟨entry.2, ?_⟩
      rw [split, ← same]
      exact List.mem_cons_of_mem _ ((last base).subset listed)
    · rw [shape, List.filter_append]
      exact (List.Sublist.refl _).append (last _)
  | renewed one two window split expired room shape =>
    have after : two.filter (unexpired now) = [] :=
      List.filter_eq_nil_iff.mpr fun entry listed => by
        rw [places one window two room split expired entry listed]
        exact Bool.false_ne_true
    have distinct := failures.distinct
    rw [split] at distinct
    refine ⟨one.filter (unexpired now), ?_, ?_, ?_⟩
    · rw [split]
      exact (List.sublist_append_left one _).filter _
    · exact fun entry listed => ⟨(others_of_split distinct).1 entry ((last one).subset listed), within shape entry listed⟩
    · have split' : opened options address now :: two = [opened options address now] ++ two := rfl
      rw [shape, split', List.filter_append, List.filter_append, after, List.append_nil]
      exact (List.Sublist.refl _).append (last _)

/-- A failure that does not renew a window before others keeps the order. -/
theorem Ordered.recorded (tracks : Tracks options now ⟨failures, past⟩) (ordered : Ordered options now ⟨failures, past⟩)
    (recorded : Recorded options address now failures result)
    (places : ∀ one window two, failures.size < maxTrackedAddresses → failures.entries = one ++ (address, window) :: two →
      window.resetAt ≤ now → ∀ entry ∈ two, unexpired now entry = false) :
    Ordered options now ⟨result, afterFailure address now failures result past⟩ := by
  obtain ⟨current, known, held, keeps, opens⟩ := tracks.current recorded
  have inside : address ∈ result.keys := InsertionMap.mem_keys.mpr ⟨_, held⟩
  rw [Ordered] at *
  dsimp only at *
  rcases recorded.filter places with ⟨window, listed, lasting, shape⟩ | ⟨ended, others, sub, apart, kept⟩
  · -- every window is the one that it was, with the same opening
    have same (entry : String × FailureWindow) (one : Window) (there : entry ∈ failures.entries)
        (before : windowOf options past entry.1 = some one) :
        ∃ two, windowOf options (afterFailure address now failures result past) entry.1 = some two ∧ two.opening = one.opening := by
      by_cases self : entry.1 = address
      · rw [self] at before ⊢
        exact ⟨current, known, keeps window one listed lasting before⟩
      · refine ⟨one, (windowOf_others self ?_).trans before, rfl⟩
        rw [InsertionMap.keys, shape, InsertionMap.keys_replaced]
        exact List.mem_map_of_mem there
    have filtered : result.entries.filter (unexpired now) = (failures.entries.filter (unexpired now)).map
        (InsertionMap.replaced address { window with count := window.count + 1 }) := by
      rw [shape, List.filter_map]
      congr 1
      refine List.filter_congr fun entry there => ?_
      rw [Function.comp_apply, InsertionMap.replaced]
      split
      · next self =>
          have equal : entry.2 = window := by
            refine Option.some.inj ((InsertionMap.get_eq_some.mpr ?_).symm.trans (InsertionMap.get_eq_some.mpr listed))
            rw [← self]
            exact there
          rw [unexpired, unexpired, equal]
      · rfl
    rw [filtered, List.pairwise_map]
    refine ordered.imp_of_mem fun {one two} first second before => ?_
    obtain ⟨earlier, later, shownOne, shownTwo, less⟩ := before
    obtain ⟨earlier', shownOne', equalOne⟩ := same one earlier (List.mem_filter.mp first).1 shownOne
    obtain ⟨later', shownTwo', equalTwo⟩ := same two later (List.mem_filter.mp second).1 shownTwo
    rw [OpenedBefore, InsertionMap.replaced_fst, InsertionMap.replaced_fst]
    exact ⟨earlier', later', shownOne', shownTwo', by rw [equalOne, equalTwo]; exact less⟩
  · -- the new window is the last
    refine List.Pairwise.sublist kept (List.pairwise_append.mpr ⟨?_, List.pairwise_singleton _ _, ?_⟩)
    · refine (ordered.sublist sub).imp_of_mem fun {one two} first second before => ?_
      rw [OpenedBefore, windowOf_others (apart one first).1 (apart one first).2, windowOf_others (apart two second).1 (apart two second).2]
      exact before
    · intro one first two second
      rw [List.mem_singleton] at second
      subst second
      obtain ⟨there, lasting⟩ := List.mem_filter.mp (sub.subset first)
      obtain ⟨earlier, shown, -⟩ := (tracks.agrees one.1 one.2 (unexpired_iff.mp lasting)).mp there
      rw [OpenedBefore, windowOf_others (apart one first).1 (apart one first).2]
      exact ⟨earlier, current, shown, known, Nat.lt_of_lt_of_le (opening_lt shown) (opens ended)⟩

theorem Throttle.run_snoc (options : ThrottleOptions) (requests : List Request) (request : Request) :
    Throttle.run options (requests ++ [request]) = (Throttle.run options requests).step options request := by
  rw [Throttle.run, List.foldl_append]
  rfl

/-- The readings of the clock that the throttle compares. -/
def Request.readings (request : Request) : List Rat := [request.checkedAt, request.failedAt]

/-- Each request is finished before the next one, and the clock does not go back. -/
def Orderly (requests : List Request) : Prop := (requests.flatMap Request.readings).Pairwise (· ≤ ·)

theorem Orderly.init {requests : List Request} {request : Request} (orderly : Orderly (requests ++ [request])) : Orderly requests ∧
      ∀ reading ∈ requests.flatMap Request.readings, reading ≤ request.checkedAt ∧ reading ≤ request.failedAt := by
  rw [Orderly, List.flatMap_append, List.pairwise_append] at orderly
  obtain ⟨before, -, between⟩ := orderly
  refine ⟨before, fun reading listed => ⟨between reading listed _ ?_, between reading listed _ ?_⟩⟩ <;>
    simp [Request.readings]

theorem exists_moment (readings : List Rat) : ∃ moment, ∀ reading ∈ readings, reading ≤ moment := by
  induction readings with
  | nil => exact ⟨0, fun _ listed => absurd listed List.not_mem_nil⟩
  | cons first readings ih =>
    obtain ⟨moment, later⟩ := ih
    refine ⟨max first moment, List.forall_mem_cons.mpr ⟨le_max_left _ _, fun reading listed => ?_⟩⟩
    exact (later reading listed).trans (le_max_right _ _)

/-- The table keeps track in every run, by induction on its requests from the last one. -/
theorem run_tracks (options : ThrottleOptions) (requests : List Request) (orderly : Orderly requests)
    (later : ∀ reading ∈ requests.flatMap Request.readings, reading ≤ moment) : Tracks options moment (Throttle.run options requests) := by
  induction requests using List.reverseRecOn generalizing moment with
  | nil =>
    refine ⟨Nat.zero_le _, fun address window _ => ⟨fun listed => (nomatch listed), ?_⟩⟩
    rintro ⟨current, shown, -⟩
    cases shown
  | append_singleton requests request ih =>
    obtain ⟨before, earlier⟩ := orderly.init
    have tracks := ih before fun reading listed => (earlier reading listed).2
    rw [Throttle.run_snoc]
    have last : request.failedAt ≤ moment := later _ (by simp [Request.readings])
    rcases Throttle.step_cases options _ request tracks.bounded with ⟨-, result, recorded, -, stepped⟩ | ⟨-, stepped⟩
    · rw [stepped]
      exact (Tracks.recorded tracks recorded).mono last
    · rw [stepped]
      exact tracks.mono last

/-- No request of a run renews an expired window before windows that have not expired. -/
def RenewsLast (options : ThrottleOptions) (requests : List Request) : Prop :=
  ∀ before request after, requests = before ++ request :: after →
    ¬KeepsPlace options (Throttle.run options before).failures request

theorem run_ordered (options : ThrottleOptions) (requests : List Request) (orderly : Orderly requests)
    (renews : RenewsLast options requests) (later : ∀ reading ∈ requests.flatMap Request.readings, reading ≤ moment) :
    Ordered options moment (Throttle.run options requests) := by
  induction requests using List.reverseRecOn generalizing moment with
  | nil => exact .nil
  | append_singleton requests request ih =>
    obtain ⟨before, earlier⟩ := orderly.init
    have tracks := run_tracks options requests before fun reading listed => (earlier reading listed).2
    have inside : RenewsLast options requests := fun one next two split => renews one next (two ++ [request]) (by rw [split]; simp)
    have ordered := ih before inside fun reading listed => (earlier reading listed).2
    rw [Throttle.run_snoc]
    have last : request.failedAt ≤ moment := later _ (by simp [Request.readings])
    rcases Throttle.step_cases options _ request tracks.bounded with ⟨records, result, recorded, -, stepped⟩ | ⟨-, stepped⟩
    · rw [stepped]
      refine (Ordered.recorded tracks ordered recorded ?_).mono last
      intro one window two room split ended entry listed
      by_contra lasting
      refine renews requests request [] rfl ⟨records, room, one, window, two, split, ended, entry, listed, ?_⟩
      exact Bool.eq_true_of_not_eq_false lasting
    · rw [stepped]
      exact ordered.mono last

/-- What the throttle does after some requests. -/
structure Throttles (options : ThrottleOptions) (requests : List Request) : Prop where
  bounded : (Throttle.run options requests).failures.size ≤ maxTrackedAddresses
  rejects : ∀ request, Orderly (requests ++ [request]) → request.credentials.throttled = true → ∀ window,
    windowOf options (Throttle.run options requests).past request.address = some window → options.maxFailures ≤ window.count →
    request.checkedAt < window.endsAt options →
    handleRequest options (Throttle.run options requests).failures request = ⟨(Throttle.run options requests).failures,
      .tooManyFailedRequests (retryAfterSecondsFor (window.failureWindow options) request.repliedAt), false⟩
  evicts : ∀ request, Orderly (requests ++ [request]) → ∀ entry ∈ (Throttle.run options requests).failures.entries,
    request.failedAt < entry.2.resetAt →
    entry.1 ∉ (handleRequest options (Throttle.run options requests).failures request).failures.keys →
    (Throttle.run options requests).failures.size = maxTrackedAddresses ∧
      ∀ other ∈ (Throttle.run options requests).failures.entries, request.failedAt < other.2.resetAt ∧
        (other.1 ≠ entry.1 → OpenedBefore options (Throttle.run options requests).past entry other)

/-- The throttle holds and forgets the right address in every run in which no failure renews an expired window before others. -/
theorem run_throttles (options : ThrottleOptions) (requests : List Request) (orderly : Orderly requests)
    (renews : RenewsLast options requests) : Throttles options requests := by
  have between {request : Request} (next : Orderly (requests ++ [request])) := next.init.2
  refine ⟨?_, fun request next looked window current many inside => ?_, fun request next entry listed lasting gone => ?_⟩
  · obtain ⟨moment, later⟩ := exists_moment (requests.flatMap Request.readings)
    exact (run_tracks options requests orderly later).bounded
  · have tracks := run_tracks options requests orderly fun reading listed => (between next reading listed).1
    have held := (tracks.agrees request.address (window.failureWindow options) inside).mpr ⟨window, current, rfl⟩
    refine handleRequest_throttled looked ?_
    rw [rejectIfThrottled, InsertionMap.get_eq_some.mpr held]
    refine if_neg fun either => ?_
    rcases either with ended | few
    · exact absurd inside (not_lt_of_ge ended)
    · exact absurd many (Nat.not_le_of_lt few)
  · have later := fun reading listed => (between next reading listed).2
    have tracks := run_tracks options requests orderly later
    have ordered := run_ordered options requests orderly renews later
    rcases Throttle.step_cases options _ request tracks.bounded with ⟨-, result, recorded, same, -⟩ | ⟨same, -⟩
    · rw [same] at gone
      obtain ⟨full, all, base, split⟩ := recorded.lost listed lasting gone
      refine ⟨full, fun other there => ⟨unexpired_iff.mp (all other there), fun different => ?_⟩⟩
      rw [Ordered, List.filter_eq_self.mpr all, split] at ordered
      rw [split] at there
      refine List.rel_of_pairwise_cons ordered ((List.mem_cons.mp there).resolve_left fun equal => different ?_)
      rw [equal]
    · rw [same] at gone
      exact absurd (List.mem_map_of_mem listed) gone

/-- A request without a token. -/
def withoutToken (address : String) (now : Rat) : Request := ⟨address, .api none .unknown, now, now, now⟩

theorem run_throttles_two : Throttles ⟨2, 10⟩ [withoutToken "::1" 0, withoutToken "::1" 1] ∧
    (handleRequest ⟨2, 10⟩ (Throttle.run ⟨2, 10⟩ [withoutToken "::1" 0, withoutToken "::1" 1]).failures
      (withoutToken "::1" 5)).reply = .tooManyFailedRequests 1 := by
  refine ⟨run_throttles _ _ ?_ ?_, by decide +kernel⟩
  · exact (by decide +kernel : [(0 : Rat), 0, 1, 1].Pairwise (· ≤ ·))
  rintro before request after split ⟨-, -, one, window, two, shape, -, entry, listed, -⟩
  have short : (one ++ (request.address, window) :: two).length ≤ 1 := by
    rw [← shape]
    rcases before with _ | ⟨first, _ | ⟨second, rest⟩⟩
    · decide
    · rw [List.cons_append, List.cons.injEq] at split
      rw [← split.1]
      decide +kernel
    · have counted := congrArg List.length split
      rw [List.length_append, List.length_cons, List.length_cons, List.length_cons] at counted
      simp at counted
      omega
  have some' := List.length_pos_of_mem listed
  rw [List.length_append, List.length_cons] at short
  omega

end Runs

section Counterexample

variable {options : ThrottleOptions} {throttle : Throttle} {failures : Failures} {address : String} {now : Rat}

theorem handleRequest_fresh (options : ThrottleOptions) (now : Rat) (absent : address ∉ failures.keys) :
    (handleRequest options failures (withoutToken address now)).failures = openWindow options address now failures ∧
      (handleRequest options failures (withoutToken address now)).reply.refuses = true := by
  have unknown := InsertionMap.get_eq_none.mpr absent
  have seen : rejectIfThrottled options failures (withoutToken address now) = none := by
    rw [rejectIfThrottled.eq_def, show (withoutToken address now).address = address from rfl, unknown]
  rcases handleRequest_records options failures (withoutToken address now) with ⟨-, -, refuses, same⟩ | ⟨not, -⟩
  · refine ⟨same.trans ?_, refuses⟩
    rw [recordFailure.eq_def, show (withoutToken address now).address = address from rfl, unknown]
    rfl
  · exact absurd ⟨rfl, seen⟩ not

/-- A failure of a new address while there is room. -/
theorem step_fresh (options : ThrottleOptions) (now : Rat) (absent : address ∉ throttle.failures.keys)
    (room : throttle.failures.size < maxTrackedAddresses) : (throttle.step options (withoutToken address now)).failures.entries =
        throttle.failures.entries ++ [opened options address now] ∧ ∀ other ∈ throttle.failures.keys,
        windowOf options (throttle.step options (withoutToken address now)).past other = windowOf options throttle.past other := by
  obtain ⟨same, refuses⟩ := handleRequest_fresh options now absent
  have shape : (throttle.step options (withoutToken address now)).failures.entries =
      throttle.failures.entries ++ [opened options address now] := by
    rw [Throttle.step, same, openWindow, makeRoom_room room]
    exact InsertionMap.set_absent absent
  refine ⟨shape, fun other listed => ?_⟩
  have kept : other ∈ (throttle.step options (withoutToken address now)).failures.keys := by
    rw [InsertionMap.keys, shape, List.map_append]
    exact List.mem_append_left _ listed
  have past : (throttle.step options (withoutToken address now)).past =
      afterFailure address now throttle.failures (throttle.step options (withoutToken address now)).failures throttle.past := by
    rw [Throttle.step, refuses]
    rfl
  rw [past]
  exact windowOf_others (fun equal => absent (equal ▸ listed)) kept

/-- An address of its own for each number. -/
def numbered (number : Nat) : String := "::" ++ Nat.repr number

theorem numbered_inj {one two : Nat} (same : numbered one = numbered two) : one = two := by
  rw [numbered, numbered, String.append_right_inj] at same
  have digits := congrArg (fun text => Nat.ofDigitChars 10 text.toList 0) same
  simpa [Nat.toList_repr, Nat.ofDigitChars_toDigits] using digits

def failuresOf (now : Rat) (numbers : List Nat) : List Request := numbers.map fun number => withoutToken (numbered number) now

/-- Failures of new addresses while there is room, by induction on their number. -/
theorem fill (options : ThrottleOptions) (now : Rat) (throttle : Throttle) (first count : Nat)
    (room : throttle.failures.size + count ≤ maxTrackedAddresses)
    (fresh : ∀ number, first ≤ number → numbered number ∉ throttle.failures.keys) :
    ((failuresOf now (List.range' first count)).foldl (Throttle.step options) throttle).failures.entries =
        throttle.failures.entries ++ (List.range' first count).map (fun number => opened options (numbered number) now) ∧
      ∀ address ∈ throttle.failures.keys,
        windowOf options ((failuresOf now (List.range' first count)).foldl (Throttle.step options) throttle).past address =
          windowOf options throttle.past address := by
  induction count generalizing first throttle with
  | zero => exact ⟨(List.append_nil _).symm, fun _ _ => rfl⟩
  | succ count ih =>
    obtain ⟨shape, windows⟩ := step_fresh options now (fresh first (Nat.le_refl _)) (by omega)
    have keys : (throttle.step options (withoutToken (numbered first) now)).failures.keys =
        throttle.failures.keys ++ [numbered first] := by
      rw [InsertionMap.keys, shape, List.map_append]
      rfl
    obtain ⟨shape', windows'⟩ := ih (throttle.step options (withoutToken (numbered first) now)) (first + 1) (by
      rw [InsertionMap.size, shape, List.length_append, List.length_singleton]
      rw [InsertionMap.size] at room
      omega) (by
      intro number later listed
      rw [keys, List.mem_append, List.mem_singleton] at listed
      rcases listed with listed | same
      · exact fresh number (by omega) listed
      · exact absurd (numbered_inj same) (by omega))
    rw [List.range'_succ, failuresOf, List.map_cons, List.foldl_cons, ← failuresOf]
    refine ⟨shape'.trans ?_, fun address listed => (windows' address ?_).trans (windows address listed)⟩
    · rw [shape, List.append_assoc, List.singleton_append, List.map_cons]
    · rw [keys]
      exact List.mem_append_left _ listed

/-- The first address fails again when its window has expired, before that of the second. -/
def renewing : List Request := [withoutToken (numbered 1) 0, withoutToken (numbered 2) 1, withoutToken (numbered 1) 10]

def twenty : ThrottleOptions := ⟨20, 10⟩

/-- The run in which other addresses fill the table after that. -/
def filling (count : Nat) : List Request := renewing ++ failuresOf 10 (List.range' 3 count)

theorem filling_orderly (count : Nat) : Orderly (filling count ++ [withoutToken (numbered 10001) 10]) := by
  have last : ∀ reading ∈ (failuresOf 10 (List.range' 3 count) ++ [withoutToken (numbered 10001) 10]).flatMap Request.readings,
      reading = 10 := by
    intro reading listed
    obtain ⟨request, present, read⟩ := List.mem_flatMap.mp listed
    have at' : request.checkedAt = 10 ∧ request.failedAt = 10 := by
      rcases List.mem_append.mp present with before | final
      · obtain ⟨number, -, rfl⟩ := List.mem_map.mp before
        exact ⟨rfl, rfl⟩
      · rw [List.mem_singleton.mp final]
        exact ⟨rfl, rfl⟩
    rw [Request.readings, at'.1, at'.2] at read
    simpa using read
  rw [Orderly, filling, List.append_assoc, List.flatMap_append, List.pairwise_append]
  refine ⟨(by decide +kernel : [(0 : Rat), 0, 1, 1, 10, 10].Pairwise (· ≤ ·)), ?_, ?_⟩
  · exact List.pairwise_of_forall_mem_list fun one first two second => le_of_eq ((last one first).trans (last two second).symm)
  · intro one first two second
    rw [last two second]
    exact (by decide +kernel : ∀ reading ∈ [(0 : Rat), 0, 1, 1, 10, 10], reading ≤ 10) one first

theorem filling_entries (count : Nat) (full : count + 2 = maxTrackedAddresses) :
    (Throttle.run twenty (filling count)).failures.entries = (numbered 1, ⟨1, 20⟩) :: (numbered 2, ⟨1, 11⟩) ::
        (List.range' 3 count).map (fun number => opened twenty (numbered number) 10) ∧
      windowOf twenty (Throttle.run twenty (filling count)).past (numbered 1) = some ⟨1, 10, 2⟩ ∧
      windowOf twenty (Throttle.run twenty (filling count)).past (numbered 2) = some ⟨1, 1, 1⟩ := by
  have three : (Throttle.run twenty renewing).failures.entries = [(numbered 1, ⟨1, 20⟩), (numbered 2, ⟨1, 11⟩)] := by decide +kernel
  have keys : (Throttle.run twenty renewing).failures.keys = [numbered 1, numbered 2] := by
    rw [InsertionMap.keys, three]
    rfl
  have room : (Throttle.run twenty renewing).failures.size + count ≤ maxTrackedAddresses := by
    rw [InsertionMap.size, three, ← full, List.length_cons, List.length_singleton, Nat.add_comm]
  obtain ⟨shape, windows⟩ := fill twenty 10 _ 3 count room fun number later listed => by
    rw [keys, List.mem_cons, List.mem_singleton] at listed
    rcases listed with same | same <;> exact absurd (numbered_inj same) (by omega)
  rw [Throttle.run, filling, List.foldl_append, ← Throttle.run, shape, three]
  refine ⟨rfl, (windows _ ?_).trans (by decide +kernel), (windows _ ?_).trans (by decide +kernel)⟩ <;>
    simp [keys]

/-- The renewed window of the first address is evicted, and the earlier one of the second stays. -/
theorem renewed_evicted : ¬∀ options requests, Orderly requests → Throttles options requests := by
  intro throttles
  obtain ⟨count, full⟩ : ∃ count, count + 2 = maxTrackedAddresses := ⟨9998, rfl⟩
  obtain ⟨shape, first, second⟩ := filling_entries count full
  have orderly := filling_orderly count
  have lasting : ∀ entry ∈ (Throttle.run twenty (filling count)).failures.entries, unexpired 10 entry = true := by
    rw [shape]
    refine List.forall_mem_cons.mpr ⟨by decide +kernel, List.forall_mem_cons.mpr ⟨by decide +kernel, fun entry listed => ?_⟩⟩
    obtain ⟨number, -, rfl⟩ := List.mem_map.mp listed
    exact (by decide +kernel : decide ((10 : Rat) < 10 + 10) = true)
  have known (number : Nat) (listed : numbered number ∈ (Throttle.run twenty (filling count)).failures.keys) : number < count + 3 := by
    rw [InsertionMap.keys, shape, List.map_cons, List.map_cons, List.map_map, List.mem_cons, List.mem_cons] at listed
    rcases listed with same | same | later
    · have equal := numbered_inj same
      omega
    · have equal := numbered_inj same
      omega
    · obtain ⟨other, inside, same⟩ := List.mem_map.mp later
      rw [List.mem_range'_1] at inside
      have equal := numbered_inj same
      omega
  have absent : numbered 10001 ∉ (Throttle.run twenty (filling count)).failures.keys := by
    intro listed
    have less := known 10001 listed
    rw [maxTrackedAddresses] at full
    omega
  have size : maxTrackedAddresses ≤ (Throttle.run twenty (filling count)).failures.size := by
    rw [InsertionMap.size, shape, List.length_cons, List.length_cons, List.length_map, List.length_range', ← full]
  have rest := makeRoom_full size lasting shape
  have gone : numbered 1 ∉
      (handleRequest twenty (Throttle.run twenty (filling count)).failures (withoutToken (numbered 10001) 10)).failures.keys := by
    have others : numbered 10001 ∉ (makeRoom 10 (Throttle.run twenty (filling count)).failures).keys := by
      rw [InsertionMap.keys, rest]
      intro listed
      refine absent ?_
      rw [InsertionMap.keys, shape]
      exact List.mem_cons_of_mem _ listed
    have distinct := (Throttle.run twenty (filling count)).failures.distinct
    rw [shape, List.map_cons, List.nodup_cons] at distinct
    rw [(handleRequest_fresh twenty 10 absent).1, openWindow, InsertionMap.keys, InsertionMap.set_absent others, rest, List.map_append,
      List.mem_append]
    rintro (listed | last)
    · exact distinct.1 listed
    · exact absurd (numbered_inj (List.mem_singleton.mp last)) (by decide)
  have keeps := (throttles twenty (filling count) orderly.init.1).evicts (withoutToken (numbered 10001) 10) orderly
    (numbered 1, ⟨1, 20⟩) (by rw [shape]; exact List.mem_cons_self) (by decide +kernel) gone
  obtain ⟨one, two, shownOne, shownTwo, less⟩ := (keeps.2 (numbered 2, ⟨1, 11⟩)
    (by rw [shape]; exact List.mem_cons_of_mem _ List.mem_cons_self)).2 fun same => absurd (numbered_inj same) (by decide)
  rw [first] at shownOne
  rw [second] at shownTwo
  cases shownOne
  cases shownTwo
  exact absurd less (by decide)

end Counterexample

end DurableExecution.Api
