import Mathlib.Order.Lattice
import DurableExecution.Order.InsertionMap

/-
This file is a library of claims that expire: a key belongs to the owner that claimed it last, until the claim expires or the
owner gives it up.
-/

namespace DurableExecution.Leases

open DurableExecution.Order

structure Claim (O T : Type) where
  owner : O
  expiresAt : T

abbrev Claims (K O T : Type) := InsertionMap K (Claim O T)

inductive ClaimOp (K O T : Type) where
  | claim (key : K) (owner : O) (expiresAt : T)
  | release (key : K) (owner : O)
  | releaseOwner (owner : O)
  | read (key : K)

variable {K O T : Type} [DecidableEq K] [DecidableEq O] [LinearOrder T]

/-- The claim on a key once an owner has asked for it: a live claim of another owner stays. -/
def Claims.claimed (claims : Claims K O T) (now : T) (key : K) (owner : O) (expiresAt : T) : Claim O T :=
  match claims.get key with
  | none => ⟨owner, expiresAt⟩
  | some held => if held.owner = owner ∨ held.expiresAt ≤ now then ⟨owner, expiresAt⟩ else held

/-- The claim is the owner's. -/
def Claims.isOwnedBy (claims : Claims K O T) (key : K) (owner : O) : Bool :=
  (claims.get key).any fun held => decide (held.owner = owner)

def ClaimOp.run (claims : Claims K O T) (now : T) : ClaimOp K O T → Claims K O T
  | .claim key owner expiresAt => claims.set key (claims.claimed now key owner expiresAt)
  | .release key owner => if claims.isOwnedBy key owner then claims.erase key else claims
  | .releaseOwner owner => claims.filter fun entry => decide (entry.2.owner ≠ owner)
  | .read _ => claims

def runClaims (claims : Claims K O T) : List (T × ClaimOp K O T) → Claims K O T
  | [] => claims
  | (now, op) :: rest => runClaims (op.run claims now) rest

/-- The owner itself does something with the key. -/
def ClaimOp.Concerns (key : K) (owner : O) : ClaimOp K O T → Prop
  | .claim other asker _ => other = key ∧ asker = owner
  | .release other asker => other = key ∧ asker = owner
  | .releaseOwner asker => asker = owner
  | .read _ => False

/-- What an owner knows: its last call on the key was a claim that was answered with its own name, and has not expired. -/
def Holds (ops : List (T × ClaimOp K O T)) (key : K) (owner : O) (expiresAt now : T) : Prop :=
  ∃ before after asked, ops = before ++ (asked, .claim key owner expiresAt) :: after ∧
    ((runClaims .empty before).claimed asked key owner expiresAt).owner = owner ∧
    (∀ later ∈ after, ¬ later.2.Concerns key owner) ∧ now < expiresAt

section Steps

variable {claims : Claims K O T} {key : K} {owner : O} {expiresAt now : T} {held : Claim O T} {op : ClaimOp K O T}
  {ops before after : List (T × ClaimOp K O T)}

theorem runClaims_append (claims : Claims K O T) (before after : List (T × ClaimOp K O T)) :
    runClaims claims (before ++ after) = runClaims (runClaims claims before) after := by
  induction before generalizing claims with
  | nil => rfl
  | cons op rest ih => exact ih _

/-- An owner that is told its own name has the claim as it asked for it. -/
theorem claimed_own (own : (claims.claimed now key owner expiresAt).owner = owner) :
    claims.claimed now key owner expiresAt = ⟨owner, expiresAt⟩ := by
  unfold Claims.claimed at *
  cases found : claims.get key with
  | none => simp only
  | some held =>
    simp only [found] at own ⊢
    split at own
    · next free => rw [if_pos free]
    · next live => exact absurd (.inl own) live

theorem claimed_live (found : claims.get key = some held) (live : now < held.expiresAt) {other : O} (apart : held.owner ≠ other) :
    claims.claimed now key other expiresAt = held := by
  unfold Claims.claimed
  simp only [found]
  rw [if_neg (by simp [apart, live])]

omit [DecidableEq O] [LinearOrder T] in
theorem get_filter (keep : K × Claim O T → Bool) (found : claims.get key = some held) (kept : keep (key, held) = true) :
    (claims.filter keep).get key = some held :=
  InsertionMap.get_eq_some.mpr (List.mem_filter.mpr ⟨InsertionMap.get_eq_some.mp found, kept⟩)

/-- A live claim stays, whatever the others do. -/
theorem ClaimOp.run_live (found : claims.get key = some held) (live : now < held.expiresAt) (apart : ¬ op.Concerns key held.owner) :
    (op.run claims now).get key = some held := by
  cases op with
  | claim other asker until' =>
    rw [ClaimOp.run, InsertionMap.get_set]
    by_cases same : key = other
    · subst same
      rw [if_pos rfl, claimed_live found live fun own => apart ⟨rfl, own.symm⟩]
    · rw [if_neg same, found]
  | release other asker =>
    rw [ClaimOp.run]
    split
    · next own =>
        refine get_filter _ found (decide_eq_true fun same => ?_)
        have same' : key = other := same
        subst same'
        rw [Claims.isOwnedBy, found, Option.any_some, decide_eq_true_eq] at own
        exact apart ⟨rfl, own.symm⟩
    · exact found
  | releaseOwner asker => exact get_filter _ found (decide_eq_true fun own => apart own.symm)
  | read other => exact found

theorem runClaims_live (found : claims.get key = some held) (live : ∀ later ∈ after, later.1 < held.expiresAt)
    (apart : ∀ later ∈ after, ¬ later.2.Concerns key held.owner) : (runClaims claims after).get key = some held := by
  induction after generalizing claims with
  | nil => exact found
  | cons op rest ih =>
    rw [List.forall_mem_cons] at live apart
    exact ih (op.2.run_live found live.1 apart.1) live.2 apart.2

end Steps

section Runs

variable {key : K} {owner other : O} {expiresAt until' now : T} {ops : List (T × ClaimOp K O T)}

/-- The table says what an owner knows. -/
theorem Holds.get (holds : Holds ops key owner expiresAt now) (read : ∀ op ∈ ops, op.1 ≤ now) :
    (runClaims .empty ops).get key = some ⟨owner, expiresAt⟩ := by
  obtain ⟨before, after, asked, rfl, own, quiet, live⟩ := holds
  rw [runClaims_append, runClaims]
  have found : ((ClaimOp.claim key owner expiresAt).run (runClaims .empty before) asked).get key = some ⟨owner, expiresAt⟩ := by
    rw [ClaimOp.run, InsertionMap.get_set, if_pos rfl, claimed_own own]
  refine runClaims_live found (fun later listed => ?_) quiet
  exact lt_of_le_of_lt (read later (List.mem_append_right _ (List.mem_cons_of_mem _ listed))) live

/-- A key has one holder. -/
theorem Holds.unique (one : Holds ops key owner expiresAt now) (two : Holds ops key other until' now)
    (read : ∀ op ∈ ops, op.1 ≤ now) : owner = other := by
  have same := (one.get read).symm.trans (two.get read)
  simpa using congrArg (Option.map Claim.owner) same

end Runs

end DurableExecution.Leases
