import Mathlib.Data.List.Nodup
import DurableExecution.Api.CursorText
import DurableExecution.Interference.SharedCalls

/-
This file models the store of api keys, whose calls make their statements one at a time, and shows that a key stands for one
identity until it is revoked, and for none after that.
-/

namespace DurableExecution.Api

open DurableExecution.Interference
open Workflow (Instant)

section Tables

structure NamespaceRow where
  id : Nat
  name : String

structure ApiKeyRow where
  id : Nat
  namespaceId : Nat
  keyHash : String
  label : String
  revokedAt : Option Instant

structure KeyTables where
  namespaces : List NamespaceRow
  apiKeys : List ApiKeyRow

structure AuthenticatedNamespace where
  namespaceId : Nat
  namespaceName : String
  keyId : Nat
  deriving DecidableEq

/-- A constraint of a table is violated, or the store itself throws. -/
inductive KeyFault where
  | violates (constraint : String)
  | invalidApiKey (message : String)
  | error (message : String)
  deriving DecidableEq

def keyPrefix : String := "dee_"

def minKeyLength : Nat := 20

def maxKeyLength : Nat := 200

def hasKeyPrefix (key : String) : Bool := keyPrefix.toList.isPrefixOf key.toList

/-- The length of a text in UTF-16. -/
def utf16Length (text : String) : Nat := (text.toList.map fun char => if char.toNat < 65536 then 1 else 2).sum

/-- The characters of `[\w-]`. -/
def keyChar (char : Char) : Bool := char.isAlphanum || char == '_' || char == '-'

def wellFormedKey (key : String) : Bool :=
  hasKeyPrefix key && decide (minKeyLength ≤ utf16Length key) && decide (utf16Length key ≤ maxKeyLength) && key.toList.all keyChar

def malformedKey : KeyFault :=
  .invalidApiKey ("an api key starts with " ++ keyPrefix ++ ", has " ++ toString minKeyLength ++ " to " ++ toString maxKeyLength ++
    " characters and holds only letters, digits, - and _")

/-- `insert into namespaces … on conflict (name) do update … returning id`. -/
def KeyTables.ensureNamespace (tables : KeyTables) (fresh : Nat) (name : String) : KeyTables × Except KeyFault Nat :=
  match tables.namespaces.find? fun row => row.name == name with
  | some row => (tables, .ok row.id)
  | none =>
    if tables.namespaces.any fun row => row.id == fresh then (tables, .error (.violates "namespaces_pkey"))
    else ({ tables with namespaces := tables.namespaces ++ [⟨fresh, name⟩] }, .ok fresh)

/-- `insert into api_keys … returning id`. -/
def KeyTables.insertKey (tables : KeyTables) (row : ApiKeyRow) : KeyTables × Except KeyFault Nat :=
  if tables.apiKeys.any fun other => other.id == row.id then (tables, .error (.violates "api_keys_pkey"))
  else if tables.apiKeys.any fun other => other.keyHash == row.keyHash then (tables, .error (.violates "api_keys_key_hash_key"))
  else if tables.namespaces.all fun other => other.id != row.namespaceId then
    (tables, .error (.violates "api_keys_namespace_id_fkey"))
  else ({ tables with apiKeys := tables.apiKeys ++ [row] }, .ok row.id)

/-- `insert into api_keys … on conflict (key_hash) do nothing`. -/
def KeyTables.insertKeyOnce (tables : KeyTables) (row : ApiKeyRow) : KeyTables × Except KeyFault Unit :=
  if tables.apiKeys.any fun other => other.keyHash == row.keyHash then (tables, .ok ())
  else
    let inserted := tables.insertKey row
    (inserted.1, inserted.2.map fun _ => ())

/-- What `adopt` makes of the row that it reads. -/
def KeyTables.adopted (tables : KeyTables) (keyHash : String) (namespaceId : Nat) (name : String) :
    Except KeyFault AuthenticatedNamespace :=
  match tables.apiKeys.find? fun row => row.keyHash == keyHash with
  | none => .error (.error "api key could not be stored")
  | some row =>
    if row.revokedAt.isSome then .error (.invalidApiKey "this api key was revoked, choose another one")
    else if row.namespaceId ≠ namespaceId then
      .error (.invalidApiKey ("this api key belongs to another namespace than \"" ++ name ++ "\""))
    else .ok ⟨namespaceId, name, row.id⟩

def KeyTables.hasActiveKey (tables : KeyTables) (name : String) : Bool :=
  tables.apiKeys.any fun row =>
    row.revokedAt.isNone && tables.namespaces.any fun other => other.id == row.namespaceId && other.name == name

def KeyTables.authenticate (hashKey : String → String) (tables : KeyTables) (key : String) : Option AuthenticatedNamespace :=
  if hasKeyPrefix key then
    tables.apiKeys.findSome? fun row =>
      if row.keyHash == hashKey key && row.revokedAt.isNone then
        (tables.namespaces.find? fun other => other.id == row.namespaceId).map fun other => ⟨row.namespaceId, other.name, row.id⟩
      else none
  else none

/-- The rows that `revoke` updates. -/
def ApiKeyRow.isActive (keyId : Nat) (row : ApiKeyRow) : Bool := row.id == keyId && row.revokedAt.isNone

def ApiKeyRow.revoked (keyId : Nat) (now : Instant) (row : ApiKeyRow) : ApiKeyRow :=
  if row.isActive keyId then { row with revokedAt := some now } else row

def KeyTables.revoke (tables : KeyTables) (now : Instant) (keyId : Nat) : KeyTables × Bool :=
  ({ tables with apiKeys := tables.apiKeys.map (ApiKeyRow.revoked keyId now) },
    tables.apiKeys.countP (ApiKeyRow.isActive keyId) == 1)

end Tables

section Calls

inductive KeyRequest where
  | ensureNamespace (name : String)
  | issue (name label : String)
  | adopt (name key label : String)
  | hasActiveKey (name : String)
  | authenticate (key : String)
  | revoke (keyId : Nat)
  deriving DecidableEq

inductive KeyAnswer where
  | ensured (namespaceId : Nat)
  | issued (key : String) (identity : AuthenticatedNamespace)
  | adopted (identity : AuthenticatedNamespace)
  | active (found : Bool)
  | identified (identity : Option AuthenticatedNamespace)
  | revoked (done : Bool)
  deriving DecidableEq

/-- How far a call has come: which of its statements are done, or how it ended. -/
inductive KeyPhase where
  | called
  | ensured (namespaceId : Nat)
  | stored (namespaceId : Nat)
  | answered (answer : KeyAnswer)
  | threw (fault : KeyFault)
  deriving DecidableEq

structure KeyCall where
  request : KeyRequest
  phase : KeyPhase
  deriving DecidableEq

/-- What a statement draws: an id, the bytes of a new key, and the time of the database. -/
structure KeyInput where
  id : Nat
  random : List UInt8
  now : Instant

/-- A statement is answered, or it fails and so does the call. -/
def KeyCall.settle {A : Type} (call : KeyCall) (done : KeyTables × Except KeyFault A) (phase : A → KeyPhase) : KeyTables × KeyCall :=
  match done with
  | (tables, .ok answer) => (tables, { call with phase := phase answer })
  | (tables, .error fault) => (tables, { call with phase := .threw fault })

/-- The part of a call up to its next statement and with it. -/
def KeyCall.next (hashKey : String → String) (tables : KeyTables) (call : KeyCall) (input : KeyInput) : KeyTables × KeyCall :=
  match call.request, call.phase with
  | .ensureNamespace name, .called => call.settle (tables.ensureNamespace input.id name) fun id => .answered (.ensured id)
  | .issue name _, .called => call.settle (tables.ensureNamespace input.id name) .ensured
  | .issue name label, .ensured namespaceId =>
    let key := keyPrefix ++ String.ofList (encodeBytes (input.random.map UInt8.toNat))
    call.settle (tables.insertKey ⟨input.id, namespaceId, hashKey key, label, none⟩) fun id =>
      .answered (.issued key ⟨namespaceId, name, id⟩)
  | .adopt name key _, .called =>
    if wellFormedKey key then call.settle (tables.ensureNamespace input.id name) .ensured
    else (tables, { call with phase := .threw malformedKey })
  | .adopt _ key label, .ensured namespaceId =>
    call.settle (tables.insertKeyOnce ⟨input.id, namespaceId, hashKey key, label, none⟩) fun _ => .stored namespaceId
  | .adopt name key _, .stored namespaceId =>
    call.settle (tables, tables.adopted (hashKey key) namespaceId name) fun identity => .answered (.adopted identity)
  | .hasActiveKey name, .called => (tables, { call with phase := .answered (.active (tables.hasActiveKey name)) })
  | .authenticate key, .called => (tables, { call with phase := .answered (.identified (tables.authenticate hashKey key)) })
  | .revoke keyId, .called =>
    ((tables.revoke input.now keyId).1, { call with phase := .answered (.revoked (tables.revoke input.now keyId).2) })
  | _, _ => (tables, call)

abbrev KeyWorld := Shared KeyTables KeyCall

/-- The store over empty tables. -/
def emptyKeyWorld : KeyWorld := ⟨⟨[], []⟩, []⟩

abbrev KeyRun (hashKey : String → String) : KeyWorld → KeyWorld → Prop :=
  SharedRun (KeyCall.next hashKey) fun call => call.phase = .called

/-- The key and the identity that a call has told its caller. -/
def KeyCall.grants (call : KeyCall) : Option (String × AuthenticatedNamespace) :=
  match call.request, call.phase with
  | .issue _ _, .answered (.issued key identity) => some (key, identity)
  | .adopt _ key _, .answered (.adopted identity) => some (key, identity)
  | .authenticate key, .answered (.identified (some identity)) => some (key, identity)
  | _, _ => none

/-- The call was told that it revoked the key. -/
def KeyCall.Revokes (keyId : Nat) (call : KeyCall) : Prop := call = ⟨.revoke keyId, .answered (.revoked true)⟩

/-- The call gave the key out for the namespace of this name, or it was asked to register it there. -/
def KeyCall.Registers (name key : String) (call : KeyCall) : Prop :=
  (∃ label identity, call = ⟨.issue name label, .answered (.issued key identity)⟩) ∨
    ∃ label phase, call = ⟨.adopt name key label, phase⟩ ∧ wellFormedKey key = true

end Calls

section Facts

/-- A namespace has this id and this name. -/
def KeyTables.Named (tables : KeyTables) (namespaceId : Nat) (name : String) : Prop :=
  ∃ row ∈ tables.namespaces, row.id = namespaceId ∧ row.name = name

/-- A key with this id and this hash is in a namespace of this name. -/
def KeyTables.Registered (tables : KeyTables) (keyHash : String) (identity : AuthenticatedNamespace) : Prop :=
  (∃ row ∈ tables.apiKeys, row.id = identity.keyId ∧ row.keyHash = keyHash ∧ row.namespaceId = identity.namespaceId) ∧
    tables.Named identity.namespaceId identity.namespaceName

def KeyTables.Revoked (tables : KeyTables) (keyId : Nat) : Prop :=
  ∃ row ∈ tables.apiKeys, row.id = keyId ∧ row.revokedAt.isSome = true

/-- The constraints of the two tables. -/
structure KeyTables.Sound (tables : KeyTables) : Prop where
  namespaceIds : (tables.namespaces.map NamespaceRow.id).Nodup
  names : (tables.namespaces.map NamespaceRow.name).Nodup
  keyIds : (tables.apiKeys.map ApiKeyRow.id).Nodup
  hashes : (tables.apiKeys.map ApiKeyRow.keyHash).Nodup
  foreign : ∀ row ∈ tables.apiKeys, ∃ name, tables.Named row.namespaceId name

/-- Rows stay, and so does the revocation of a key. -/
structure KeyTables.Onward (tables after : KeyTables) : Prop where
  namespaces : ∀ row ∈ tables.namespaces, row ∈ after.namespaces
  keys : ∀ row ∈ tables.apiKeys, ∃ row' ∈ after.apiKeys, row'.id = row.id ∧ row'.keyHash = row.keyHash ∧
    row'.namespaceId = row.namespaceId ∧ (row.revokedAt.isSome = true → row'.revokedAt.isSome = true)

/-- What a call knows: the namespace that it has asked for, the key that it has granted or revoked. -/
structure KeyCall.Knows (hashKey : String → String) (tables : KeyTables) (call : KeyCall) : Prop where
  issues : ∀ name label namespaceId, call = ⟨.issue name label, .ensured namespaceId⟩ → tables.Named namespaceId name
  adopts : ∀ name key label namespaceId,
    call = ⟨.adopt name key label, .ensured namespaceId⟩ ∨ call = ⟨.adopt name key label, .stored namespaceId⟩ →
      wellFormedKey key = true ∧ tables.Named namespaceId name
  grants : ∀ key identity, call.grants = some (key, identity) → hasKeyPrefix key = true ∧ tables.Registered (hashKey key) identity
  revokes : ∀ keyId, call.Revokes keyId → tables.Revoked keyId

variable {tables after : KeyTables} {hashKey : String → String} {key name : String} {identity : AuthenticatedNamespace}
  {namespaceId keyId fresh : Nat} {row : ApiKeyRow}

theorem KeyTables.Onward.refl (tables : KeyTables) : tables.Onward tables :=
  ⟨fun _ => id, fun row listed => ⟨row, listed, rfl, rfl, rfl, id⟩⟩

theorem KeyTables.Named.onward (named : tables.Named namespaceId name) (onward : tables.Onward after) : after.Named namespaceId name := by
  obtain ⟨row, listed, same⟩ := named
  exact ⟨row, onward.namespaces row listed, same⟩

theorem KeyTables.Registered.onward {keyHash : String} (registered : tables.Registered keyHash identity) (onward : tables.Onward after) :
    after.Registered keyHash identity := by
  obtain ⟨⟨row, listed, id, hash, ns⟩, named⟩ := registered
  obtain ⟨row', listed', sameId, sameHash, sameNamespace, -⟩ := onward.keys row listed
  exact ⟨⟨row', listed', sameId.trans id, sameHash.trans hash, sameNamespace.trans ns⟩, named.onward onward⟩

theorem KeyTables.Revoked.onward (revoked : tables.Revoked keyId) (onward : tables.Onward after) : after.Revoked keyId := by
  obtain ⟨row, listed, rfl, gone⟩ := revoked
  obtain ⟨row', listed', id, -, -, stays⟩ := onward.keys row listed
  exact ⟨row', listed', id, stays gone⟩

theorem KeyCall.Knows.onward {call : KeyCall} (knows : call.Knows hashKey tables) (onward : tables.Onward after) :
    call.Knows hashKey after where
  issues name label namespaceId same := (knows.issues name label namespaceId same).onward onward
  adopts name key label namespaceId same := (knows.adopts name key label namespaceId same).imp_right (·.onward onward)
  grants key identity granted := (knows.grants key identity granted).imp_right (·.onward onward)
  revokes keyId revoked := (knows.revokes keyId revoked).onward onward

/-- The name of a namespace is the one that a join finds. -/
theorem KeyTables.Sound.named_unique (sound : tables.Sound) (named : tables.Named namespaceId name) {other : String}
    (named' : tables.Named namespaceId other) : name = other := by
  obtain ⟨row, listed, id, rfl⟩ := named
  obtain ⟨row', listed', id', rfl⟩ := named'
  rw [List.inj_on_of_nodup_map sound.namespaceIds listed listed' (id.trans id'.symm)]

/-- A hash stands for one identity. -/
theorem KeyTables.Sound.registered_unique (sound : tables.Sound) {keyHash : String} (registered : tables.Registered keyHash identity)
    {other : AuthenticatedNamespace} (registered' : tables.Registered keyHash other) : identity = other := by
  obtain ⟨⟨row, listed, id, hash, ns⟩, named⟩ := registered
  obtain ⟨⟨row', listed', id', hash', ns'⟩, named'⟩ := registered'
  obtain rfl := List.inj_on_of_nodup_map sound.hashes listed listed' (hash.trans hash'.symm)
  have sameNamespace : identity.namespaceId = other.namespaceId := ns.symm.trans ns'
  rw [sameNamespace] at named
  have sameName := sound.named_unique named named'
  have sameKey : identity.keyId = other.keyId := id.symm.trans id'
  cases identity
  cases other
  simp_all

end Facts

section Statements

variable {tables after : KeyTables} {hashKey : String → String} {key keyHash name : String} {identity : AuthenticatedNamespace}
  {namespaceId keyId fresh : Nat} {row : ApiKeyRow} {now : Instant}

/-- The tables after a statement are sound, and every row that was there still is. -/
structure KeyTables.Grows (tables after : KeyTables) : Prop where
  sound : after.Sound
  onward : tables.Onward after

theorem KeyTables.Sound.grows (sound : tables.Sound) : tables.Grows tables := ⟨sound, .refl tables⟩

theorem ensureNamespace_spec (sound : tables.Sound) {answer : Except KeyFault Nat}
    (done : tables.ensureNamespace fresh name = (after, answer)) :
    tables.Grows after ∧ after.apiKeys = tables.apiKeys ∧ ∀ id, answer = .ok id → after.Named id name := by
  unfold KeyTables.ensureNamespace at done
  split at done
  · next row found =>
      simp only [Prod.mk.injEq] at done
      obtain ⟨rfl, rfl⟩ := done
      refine ⟨sound.grows, rfl, fun id same => ?_⟩
      simp only [Except.ok.injEq] at same
      exact ⟨row, List.mem_of_find?_eq_some found, same, by simpa using List.find?_some found⟩
  · next absent =>
      split at done
      · simp only [Prod.mk.injEq] at done
        obtain ⟨rfl, rfl⟩ := done
        exact ⟨sound.grows, rfl, by simp⟩
      · next unused =>
          simp only [Prod.mk.injEq] at done
          obtain ⟨rfl, rfl⟩ := done
          have onward : tables.Onward { tables with namespaces := tables.namespaces ++ [⟨fresh, name⟩] } :=
            ⟨fun row listed => List.mem_append_left _ listed, fun row listed => ⟨row, listed, rfl, rfl, rfl, id⟩⟩
          refine ⟨⟨⟨?_, ?_, sound.keyIds, sound.hashes, fun row listed => ?_⟩, onward⟩, rfl, fun id same => ?_⟩
          · have apart : ∀ row ∈ tables.namespaces, row.id ≠ fresh := by simpa using unused
            simpa [List.nodup_append, sound.namespaceIds] using apart
          · have apart : ∀ row ∈ tables.namespaces, row.name ≠ name := by simpa using absent
            simpa [List.nodup_append, sound.names] using apart
          · obtain ⟨name', named⟩ := sound.foreign row listed
            exact ⟨name', named.onward onward⟩
          · simp only [Except.ok.injEq] at same
            exact ⟨⟨fresh, name⟩, List.mem_append_right _ (List.mem_singleton_self _), same, rfl⟩

/-- An insert that is answered adds its row, under an id that was not in use. -/
theorem insertKey_spec (sound : tables.Sound) {answer : Except KeyFault Nat} (done : tables.insertKey row = (after, answer)) :
    tables.Grows after ∧ after.namespaces = tables.namespaces ∧ (∀ other ∈ after.apiKeys, other ∈ tables.apiKeys ∨ other = row) ∧
      ∀ id, answer = .ok id → id = row.id ∧ row ∈ after.apiKeys ∧ ∀ other ∈ tables.apiKeys, other.id ≠ row.id := by
  have refused {fault : KeyFault} (same : (tables, Except.error fault) = (after, answer)) :
      tables.Grows after ∧ after.namespaces = tables.namespaces ∧ (∀ other ∈ after.apiKeys, other ∈ tables.apiKeys ∨ other = row) ∧
        ∀ id, answer = .ok id → id = row.id ∧ row ∈ after.apiKeys ∧ ∀ other ∈ tables.apiKeys, other.id ≠ row.id := by
    simp only [Prod.mk.injEq] at same
    obtain ⟨rfl, rfl⟩ := same
    exact ⟨sound.grows, rfl, fun other => .inl, by simp⟩
  unfold KeyTables.insertKey at done
  split at done
  · exact refused done
  · next unused =>
      split at done
      · exact refused done
      · next unhashed =>
          split at done
          · exact refused done
          · next foreign =>
              simp only [Prod.mk.injEq] at done
              obtain ⟨rfl, rfl⟩ := done
              have apart : ∀ other ∈ tables.apiKeys, other.id ≠ row.id := by simpa using unused
              have apart' : ∀ other ∈ tables.apiKeys, other.keyHash ≠ row.keyHash := by simpa using unhashed
              have onward : tables.Onward { tables with apiKeys := tables.apiKeys ++ [row] } :=
                ⟨fun _ => id, fun other listed => ⟨other, List.mem_append_left _ listed, rfl, rfl, rfl, id⟩⟩
              refine ⟨⟨⟨sound.namespaceIds, sound.names, ?_, ?_, fun other listed => ?_⟩, onward⟩, rfl, fun other listed => ?_,
                fun id same => ?_⟩
              · simpa [List.nodup_append, sound.keyIds] using apart
              · simpa [List.nodup_append, sound.hashes] using apart'
              · obtain before | added := List.mem_append.mp listed
                · exact sound.foreign other before
                · obtain rfl := List.mem_singleton.mp added
                  have known : ∃ space ∈ tables.namespaces, space.id = other.namespaceId := by simpa using foreign
                  obtain ⟨space, listed', own⟩ := known
                  exact ⟨space.name, space, listed', own, rfl⟩
              · exact (List.mem_append.mp listed).imp_right List.mem_singleton.mp
              · simp only [Except.ok.injEq] at same
                exact ⟨same.symm, List.mem_append_right _ (List.mem_singleton_self _), apart⟩

theorem insertKey_error {fault : KeyFault} (failed : (tables.insertKey row).2 = .error fault) : (tables.insertKey row).1 = tables := by
  revert failed
  unfold KeyTables.insertKey
  split
  · simp
  · split
    · simp
    · split <;> simp

theorem insertKeyOnce_spec (sound : tables.Sound) {answer : Except KeyFault Unit} (done : tables.insertKeyOnce row = (after, answer)) :
    tables.Grows after ∧ after.namespaces = tables.namespaces ∧ ∀ other ∈ after.apiKeys, other ∈ tables.apiKeys ∨ other = row := by
  unfold KeyTables.insertKeyOnce at done
  split at done
  · simp only [Prod.mk.injEq] at done
    obtain ⟨rfl, rfl⟩ := done
    exact ⟨sound.grows, rfl, fun other => .inl⟩
  · simp only [Prod.mk.injEq] at done
    obtain ⟨rfl, rfl⟩ := done
    obtain ⟨grows, same, rows, -⟩ := insertKey_spec sound rfl
    exact ⟨grows, same, rows⟩

theorem insertKeyOnce_error {fault : KeyFault} (failed : (tables.insertKeyOnce row).2 = .error fault) :
    (tables.insertKeyOnce row).1 = tables := by
  unfold KeyTables.insertKeyOnce at *
  split at failed
  · simp at failed
  · next unhashed =>
      rw [if_neg unhashed]
      cases answer : (tables.insertKey row).2 with
      | ok id => simp [answer, Except.map] at failed
      | error fault => exact insertKey_error answer

/-- `adopt` answers with the row of the key's hash, which is not revoked. -/
theorem adopted_spec (done : tables.adopted keyHash namespaceId name = .ok identity) :
    identity.namespaceId = namespaceId ∧ identity.namespaceName = name ∧ ∃ row ∈ tables.apiKeys,
      row.id = identity.keyId ∧ row.keyHash = keyHash ∧ row.namespaceId = namespaceId ∧ row.revokedAt.isSome = false := by
  unfold KeyTables.adopted at done
  split at done
  · simp at done
  · next row found =>
      split at done
      · simp at done
      · next live =>
          split at done
          · simp at done
          · next own =>
              simp only [Except.ok.injEq] at done
              subst done
              have hash := List.find?_some found
              exact ⟨rfl, rfl, row, List.mem_of_find?_eq_some found, rfl, by simpa using hash, by simpa using own, by simpa using live⟩

theorem authenticate_spec (found : tables.authenticate hashKey key = some identity) :
    hasKeyPrefix key = true ∧ tables.Named identity.namespaceId identity.namespaceName ∧ ∃ row ∈ tables.apiKeys,
      row.id = identity.keyId ∧ row.keyHash = hashKey key ∧ row.namespaceId = identity.namespaceId ∧ row.revokedAt.isSome = false := by
  unfold KeyTables.authenticate at found
  split at found
  · next begins =>
      obtain ⟨row, listed, joined⟩ := List.exists_of_findSome?_eq_some found
      split at joined
      · next live =>
          obtain ⟨space, there, rfl⟩ := Option.map_eq_some_iff.mp joined
          simp only [Bool.and_eq_true, beq_iff_eq, Option.isNone_iff_eq_none] at live
          have own := List.find?_some there
          refine ⟨begins, ⟨space, List.mem_of_find?_eq_some there, by simpa using own, rfl⟩, row, listed, rfl, live.1, rfl, ?_⟩
          simp [live.2]
      · simp at joined
  · simp at found

/-- A registered key authenticates as its identity until it is revoked. -/
theorem authenticate_registered (sound : tables.Sound) (begins : hasKeyPrefix key = true)
    (registered : tables.Registered (hashKey key) identity) : (tables.Revoked identity.keyId → tables.authenticate hashKey key = none) ∧
      (¬ tables.Revoked identity.keyId → tables.authenticate hashKey key = some identity) := by
  have agrees (other : AuthenticatedNamespace) (found : tables.authenticate hashKey key = some other) :
      other = identity ∧ ¬ tables.Revoked identity.keyId := by
    obtain ⟨-, named, row, listed, id, hash, ns, live⟩ := authenticate_spec found
    obtain rfl := sound.registered_unique ⟨⟨row, listed, id, hash, ns⟩, named⟩ registered
    refine ⟨rfl, fun ⟨row', listed', id', gone⟩ => ?_⟩
    obtain rfl := List.inj_on_of_nodup_map sound.keyIds listed listed' (id.trans id'.symm)
    simp [live] at gone
  refine ⟨fun revoked => ?_, fun live => ?_⟩
  · cases found : tables.authenticate hashKey key with
    | none => rfl
    | some other => exact absurd revoked (agrees other found).2
  · obtain ⟨⟨row, listed, id, hash, ns⟩, space, listed', own, -⟩ := registered
    cases found : tables.authenticate hashKey key with
    | some other => rw [(agrees other found).1]
    | none =>
      rw [KeyTables.authenticate, if_pos begins, List.findSome?_eq_none_iff] at found
      have missed := found row listed
      have unrevoked : row.revokedAt.isNone = true := by
        cases revokedAt : row.revokedAt with
        | none => rfl
        | some at' => exact absurd ⟨row, listed, id, by simp [revokedAt]⟩ live
      rw [if_pos (by simp [hash, unrevoked]), Option.map_eq_none_iff, List.find?_eq_none] at missed
      exact absurd (own.trans ns.symm) (by simpa using missed space listed')

theorem ApiKeyRow.revoked_same (row : ApiKeyRow) (keyId : Nat) (now : Instant) : (row.revoked keyId now).id = row.id ∧
    (row.revoked keyId now).keyHash = row.keyHash ∧ (row.revoked keyId now).namespaceId = row.namespaceId := by
  unfold ApiKeyRow.revoked
  split <;> simp

/-- A revocation revokes the key if it is there, and is told so if it is the first. -/
theorem revoke_spec (sound : tables.Sound) (now : Instant) (keyId : Nat) :
    tables.Grows (tables.revoke now keyId).1 ∧ ((tables.revoke now keyId).2 = true → (tables.revoke now keyId).1.Revoked keyId) ∧
      ∀ other, (tables.revoke now keyId).1.Revoked other → tables.Revoked other ∨ other = keyId ∧ (tables.revoke now keyId).2 = true := by
  have onward : tables.Onward (tables.revoke now keyId).1 := by
    refine ⟨fun _ => id, fun row listed => ⟨row.revoked keyId now, List.mem_map_of_mem listed, (row.revoked_same keyId now).1,
      (row.revoked_same keyId now).2.1, (row.revoked_same keyId now).2.2, fun gone => ?_⟩⟩
    unfold ApiKeyRow.revoked
    split <;> simp [gone]
  refine ⟨⟨⟨sound.namespaceIds, sound.names, ?_, ?_, fun row listed => ?_⟩, onward⟩, fun done => ?_, fun other revoked => ?_⟩
  · have same : (tables.revoke now keyId).1.apiKeys.map ApiKeyRow.id = tables.apiKeys.map ApiKeyRow.id := by
      simp [KeyTables.revoke, Function.comp_def, ApiKeyRow.revoked_same]
    rw [same]
    exact sound.keyIds
  · have same : (tables.revoke now keyId).1.apiKeys.map ApiKeyRow.keyHash = tables.apiKeys.map ApiKeyRow.keyHash := by
      simp [KeyTables.revoke, Function.comp_def, ApiKeyRow.revoked_same]
    rw [same]
    exact sound.hashes
  · obtain ⟨old, before, rfl⟩ := List.mem_map.mp listed
    rw [(old.revoked_same keyId now).2.2]
    exact sound.foreign old before
  · have some' : 0 < tables.apiKeys.countP (ApiKeyRow.isActive keyId) := by
      have one : tables.apiKeys.countP (ApiKeyRow.isActive keyId) = 1 := by simpa [KeyTables.revoke] using done
      omega
    obtain ⟨row, listed, active⟩ := List.countP_pos_iff.mp some'
    refine ⟨row.revoked keyId now, List.mem_map_of_mem listed, ?_, by simp [ApiKeyRow.revoked, active]⟩
    simp only [ApiKeyRow.isActive, Bool.and_eq_true, beq_iff_eq] at active
    rw [(row.revoked_same keyId now).1, active.1]
  · obtain ⟨row, listed, rfl, gone⟩ := revoked
    obtain ⟨old, before, rfl⟩ := List.mem_map.mp listed
    rw [(old.revoked_same keyId now).1]
    cases active : old.isActive keyId with
    | false => exact .inl ⟨old, before, rfl, by simpa [ApiKeyRow.revoked, active] using gone⟩
    | true =>
      have once : tables.apiKeys.countP (ApiKeyRow.isActive keyId) = 1 := by
        have most : tables.apiKeys.countP (ApiKeyRow.isActive keyId) ≤ (tables.apiKeys.map ApiKeyRow.id).count keyId := by
          rw [List.count, List.countP_map]
          exact List.countP_mono_left fun row _ => by simp [ApiKeyRow.isActive]; tauto
        have few := List.nodup_iff_count_le_one.mp sound.keyIds keyId
        have some' := List.countP_pos_iff.mpr ⟨old, before, active⟩
        omega
      simp only [ApiKeyRow.isActive, Bool.and_eq_true, beq_iff_eq] at active
      exact .inr ⟨active.1, by simpa [KeyTables.revoke] using once⟩

end Statements

section Runs

variable {tables after : KeyTables} {hashKey : String → String} {key name : String} {identity : AuthenticatedNamespace}
  {keyId : Nat} {call : KeyCall} {input : KeyInput} {world later : KeyWorld}

theorem hasKeyPrefix_issued (text : String) : hasKeyPrefix (keyPrefix ++ text) = true := by
  rw [hasKeyPrefix, String.toList_append, List.isPrefixOf_iff_prefix]
  exact List.prefix_append _ _

theorem wellFormedKey_begins (wellFormed : wellFormedKey key = true) : hasKeyPrefix key = true := by
  simp only [wellFormedKey, Bool.and_eq_true] at wellFormed
  exact wellFormed.1.1.1

/-- A call that has only been made knows nothing. -/
theorem KeyCall.Knows.called (phase : call.phase = .called) : call.Knows hashKey tables where
  issues name label namespaceId same := by simp [same] at phase
  adopts name key label namespaceId same := by obtain rfl | rfl := same <;> simp at phase
  grants key identity granted := by simp [KeyCall.grants, phase] at granted
  revokes keyId revoked := by simp [show call = _ from revoked] at phase

theorem KeyCall.Knows.threw {request : KeyRequest} {fault : KeyFault} : KeyCall.Knows hashKey tables ⟨request, .threw fault⟩ where
  issues name label namespaceId same := by simp at same
  adopts name key label namespaceId same := by simp at same
  grants key identity granted := by simp [KeyCall.grants] at granted
  revokes keyId revoked := by simp [KeyCall.Revokes] at revoked

/-- What one statement of a call does: the tables grow, the call knows what it has learned, new keys and revocations are its own,
and it grants no key that is revoked. -/
structure KeyStep (hashKey : String → String) (tables : KeyTables) (call : KeyCall) (after : KeyTables) (call' : KeyCall) : Prop where
  grows : tables.Grows after
  knows : call'.Knows hashKey after
  revokes : ∀ keyId, after.Revoked keyId → tables.Revoked keyId ∨ call'.Revokes keyId
  registers : ∀ row ∈ after.apiKeys, (∃ row' ∈ tables.apiKeys, row'.keyHash = row.keyHash ∧ row'.namespaceId = row.namespaceId) ∨
    ∃ key name, row.keyHash = hashKey key ∧ after.Named row.namespaceId name ∧ call'.Registers name key
  grants : ∀ key identity, call'.grants = some (key, identity) → tables.Revoked identity.keyId → call' = call

theorem revoked_of_rows (rows : ∀ row ∈ after.apiKeys, row ∈ tables.apiKeys ∨ row.revokedAt = none) (revoked : after.Revoked keyId) :
    tables.Revoked keyId := by
  obtain ⟨row, listed, id, gone⟩ := revoked
  obtain before | none' := rows row listed
  · exact ⟨row, before, id, gone⟩
  · simp [none'] at gone

/-- A statement that leaves the keys alone, after which the call has granted nothing. -/
theorem KeyStep.quiet {call' : KeyCall} (grows : tables.Grows after) (same : after.apiKeys = tables.apiKeys)
    (knows : call'.Knows hashKey after) (silent : call'.grants = none) : KeyStep hashKey tables call after call' where
  grows := grows
  knows := knows
  revokes _ revoked := .inl (revoked_of_rows (fun row listed => .inl (same ▸ listed)) revoked)
  registers row listed := .inl ⟨row, same ▸ listed, rfl, rfl⟩
  grants key identity granted := by simp [silent] at granted

/-- A call that reads, and grants a key that is registered and not revoked. -/
theorem KeyStep.reads {call' : KeyCall} (sound : tables.Sound) (knows : call'.Knows hashKey tables)
    (live : ∀ key identity, call'.grants = some (key, identity) → ¬ tables.Revoked identity.keyId) :
    KeyStep hashKey tables call tables call' where
  grows := sound.grows
  knows := knows
  revokes _ := .inl
  registers row listed := .inl ⟨row, listed, rfl, rfl⟩
  grants key identity granted revoked := absurd revoked (live key identity granted)

theorem KeyTables.Sound.unrevoked (sound : tables.Sound) {row : ApiKeyRow} (listed : row ∈ tables.apiKeys)
    (live : row.revokedAt.isSome = false) : ¬ tables.Revoked row.id := by
  intro revoked
  obtain ⟨row', listed', id, gone⟩ := revoked
  obtain rfl := List.inj_on_of_nodup_map sound.keyIds listed' listed id
  simp [live] at gone

theorem KeyCall.settle_cases {A : Type} (call : KeyCall) (done : KeyTables × Except KeyFault A) (phase : A → KeyPhase) :
    (∃ fault, done.2 = .error fault ∧ call.settle done phase = (done.1, ⟨call.request, .threw fault⟩)) ∨
      ∃ answer, done.2 = .ok answer ∧ call.settle done phase = (done.1, ⟨call.request, phase answer⟩) := by
  obtain ⟨tables, answer | fault⟩ := done
  · exact .inl ⟨_, rfl, rfl⟩
  · exact .inr ⟨_, rfl, rfl⟩

/-- A call that makes sure of its namespace knows it then. -/
theorem KeyStep.ensures (phase : Nat → KeyPhase) (sound : tables.Sound) (silent : ∀ id, KeyCall.grants ⟨call.request, phase id⟩ = none)
    (learns : ∀ after id, KeyTables.Named after id name → KeyCall.Knows hashKey after ⟨call.request, phase id⟩) (fresh : Nat) :
    KeyStep hashKey tables call (call.settle (tables.ensureNamespace fresh name) phase).1
      (call.settle (tables.ensureNamespace fresh name) phase).2 := by
  obtain ⟨grows, same, named⟩ := ensureNamespace_spec sound (rfl : tables.ensureNamespace fresh name = (_, _))
  obtain ⟨fault, -, failed⟩ | ⟨id, answered, done⟩ := call.settle_cases (tables.ensureNamespace fresh name) phase
  · rw [failed]
    exact .quiet grows same .threw (by simp [KeyCall.grants])
  · rw [done]
    exact .quiet grows same (learns _ id (named id answered)) (silent id)

/-- A call whose statement fails. -/
theorem KeyStep.fails (sound : tables.Sound) (same : after = tables) (fault : KeyFault) :
    KeyStep hashKey tables call after ⟨call.request, .threw fault⟩ := by
  subst same
  exact .quiet sound.grows rfl .threw (by simp [KeyCall.grants])

/-- A call that inserts the key it gives out. -/
theorem KeyStep.issues (sound : tables.Sound) {label text : String} {namespaceId fresh id : Nat} (named : tables.Named namespaceId name)
    (inserted : tables.insertKey ⟨fresh, namespaceId, hashKey (keyPrefix ++ text), label, none⟩ = (after, .ok id)) :
    KeyStep hashKey tables call after ⟨.issue name label, .answered (.issued (keyPrefix ++ text) ⟨namespaceId, name, id⟩)⟩ := by
  obtain ⟨grows, -, rows, added⟩ := insertKey_spec sound inserted
  obtain ⟨rfl, listed, unused⟩ := added id rfl
  have known := named.onward grows.onward
  refine ⟨grows, ⟨by simp, by simp, fun key identity granted => ?_, by simp [KeyCall.Revokes]⟩, fun keyId revoked => ?_,
    fun row new => ?_, fun key identity granted revoked => ?_⟩
  · simp only [KeyCall.grants, Option.some.injEq, Prod.mk.injEq] at granted
    obtain ⟨rfl, rfl⟩ := granted
    exact ⟨hasKeyPrefix_issued text, ⟨_, listed, rfl, rfl, rfl⟩, known⟩
  · exact .inl (revoked_of_rows (fun row new => (rows row new).imp_right fun same => by rw [same]) revoked)
  · obtain before | rfl := rows row new
    · exact .inl ⟨row, before, rfl, rfl⟩
    · exact .inr ⟨_, name, rfl, known, .inl ⟨label, _, rfl⟩⟩
  · -- a new id is not the id of a key that is revoked
    simp only [KeyCall.grants, Option.some.injEq, Prod.mk.injEq] at granted
    obtain ⟨rfl, rfl⟩ := granted
    obtain ⟨row, before, same, -⟩ := revoked
    exact absurd same (unused row before)

/-- A call that stores the key it was asked to register. -/
theorem KeyStep.stores (sound : tables.Sound) {label : String} {namespaceId fresh : Nat}
    (asked : wellFormedKey key = true ∧ tables.Named namespaceId name) :
    KeyStep hashKey tables call (tables.insertKeyOnce ⟨fresh, namespaceId, hashKey key, label, none⟩).1
      ⟨.adopt name key label, .stored namespaceId⟩ := by
  have inserted : tables.insertKeyOnce ⟨fresh, namespaceId, hashKey key, label, none⟩ = (_, _) := rfl
  obtain ⟨grows, -, rows⟩ := insertKeyOnce_spec sound inserted
  have known := asked.2.onward grows.onward
  refine ⟨grows, ⟨by simp, ?_, by simp [KeyCall.grants], by simp [KeyCall.Revokes]⟩, fun keyId revoked => ?_, fun row new => ?_,
    by simp [KeyCall.grants]⟩
  · simp only [KeyCall.mk.injEq, KeyRequest.adopt.injEq, reduceCtorEq, and_false, KeyPhase.stored.injEq, false_or]
    rintro _ _ _ _ ⟨⟨rfl, rfl, rfl⟩, rfl⟩
    exact ⟨asked.1, known⟩
  · exact .inl (revoked_of_rows (fun row new => (rows row new).imp_right fun same => by rw [same]) revoked)
  · obtain before | rfl := rows row new
    · exact .inl ⟨row, before, rfl, rfl⟩
    · exact .inr ⟨key, name, rfl, known, .inr ⟨label, _, rfl, asked.1⟩⟩

/-- A call that reads the key it has registered. -/
theorem KeyStep.adopts (sound : tables.Sound) {label : String} {namespaceId : Nat}
    (asked : wellFormedKey key = true ∧ tables.Named namespaceId name)
    (read : tables.adopted (hashKey key) namespaceId name = .ok identity) :
    KeyStep hashKey tables call tables ⟨.adopt name key label, .answered (.adopted identity)⟩ := by
  obtain ⟨rfl, rfl, row, listed, id, hash, ns, live⟩ := adopted_spec read
  have granted {key' : String} {identity' : AuthenticatedNamespace}
      (same : KeyCall.grants ⟨.adopt identity.namespaceName key label, .answered (.adopted identity)⟩ = some (key', identity')) :
      key' = key ∧ identity' = identity := by
    simp only [KeyCall.grants, Option.some.injEq, Prod.mk.injEq] at same
    exact ⟨same.1.symm, same.2.symm⟩
  refine .reads sound ⟨by simp, by simp, fun key' identity' same => ?_, by simp [KeyCall.Revokes]⟩ fun key' identity' same => ?_
  · obtain ⟨rfl, rfl⟩ := granted same
    exact ⟨wellFormedKey_begins asked.1, ⟨row, listed, id, hash, ns⟩, asked.2⟩
  · obtain ⟨rfl, rfl⟩ := granted same
    exact id ▸ sound.unrevoked listed live

theorem KeyStep.identifies (sound : tables.Sound) :
    KeyStep hashKey tables call tables ⟨.authenticate key, .answered (.identified (tables.authenticate hashKey key))⟩ := by
  cases found : tables.authenticate hashKey key with
  | none =>
    exact .quiet sound.grows rfl ⟨by simp, by simp, by simp [KeyCall.grants], by simp [KeyCall.Revokes]⟩ (by simp [KeyCall.grants])
  | some identity =>
    obtain ⟨begins, named, row, listed, id, hash, ns, live⟩ := authenticate_spec found
    refine .reads sound ⟨by simp, by simp, fun key' identity' same => ?_, by simp [KeyCall.Revokes]⟩ fun key' identity' same => ?_
    · simp only [KeyCall.grants, Option.some.injEq, Prod.mk.injEq] at same
      obtain ⟨rfl, rfl⟩ := same
      exact ⟨begins, ⟨row, listed, id, hash, ns⟩, named⟩
    · simp only [KeyCall.grants, Option.some.injEq, Prod.mk.injEq] at same
      obtain ⟨rfl, rfl⟩ := same
      exact id ▸ sound.unrevoked listed live

theorem KeyStep.revoking (sound : tables.Sound) (now : Instant) :
    KeyStep hashKey tables call (tables.revoke now keyId).1 ⟨.revoke keyId, .answered (.revoked (tables.revoke now keyId).2)⟩ := by
  obtain ⟨grows, done, only⟩ := revoke_spec sound now keyId
  refine ⟨grows, ⟨by simp, by simp, by simp [KeyCall.grants], fun other told => ?_⟩, fun other revoked => ?_, fun row listed => ?_,
    by simp [KeyCall.grants]⟩
  · simp only [KeyCall.Revokes, KeyCall.mk.injEq, KeyRequest.revoke.injEq, KeyPhase.answered.injEq, KeyAnswer.revoked.injEq] at told
    obtain ⟨rfl, hit⟩ := told
    exact done hit
  · obtain before | ⟨rfl, hit⟩ := only other revoked
    · exact .inl before
    · exact .inr (by rw [KeyCall.Revokes, hit])
  · obtain ⟨old, before, rfl⟩ := List.mem_map.mp listed
    exact .inl ⟨old, before, (old.revoked_same keyId now).2.1.symm, (old.revoked_same keyId now).2.2.symm⟩

/-- A statement of any call. -/
theorem KeyCall.next_step (sound : tables.Sound) (knows : call.Knows hashKey tables) (input : KeyInput) :
    KeyStep hashKey tables call (call.next hashKey tables input).1 (call.next hashKey tables input).2 := by
  obtain ⟨request, phase⟩ := call
  unfold KeyCall.next
  split
  · next name asked at' =>
      cases asked
      cases at'
      exact .ensures _ sound (fun id => by simp [KeyCall.grants]) (fun after id named =>
        ⟨by simp, by simp, by simp [KeyCall.grants], by simp [KeyCall.Revokes]⟩) input.id
  · next name label asked at' =>
      cases asked
      cases at'
      refine .ensures .ensured sound (fun id => by simp [KeyCall.grants]) (fun after id named => ?_) input.id
      exact ⟨by simp_all, by simp, by simp [KeyCall.grants], by simp [KeyCall.Revokes]⟩
  · next name label namespaceId asked at' =>
      cases asked
      cases at'
      have named := knows.issues name label namespaceId rfl
      set text := String.ofList (encodeBytes (input.random.map UInt8.toNat))
      obtain ⟨fault, failed, done⟩ | ⟨id, answered, done⟩ := KeyCall.settle_cases ⟨.issue name label, .ensured namespaceId⟩
        (tables.insertKey ⟨input.id, namespaceId, hashKey (keyPrefix ++ text), label, none⟩) fun id =>
          .answered (.issued (keyPrefix ++ text) ⟨namespaceId, name, id⟩)
      · simp only [done]
        exact .fails sound (insertKey_error failed) fault
      · simp only [done]
        exact .issues sound named (Prod.ext rfl answered)
  · next name key label asked at' =>
      cases asked
      cases at'
      split
      · next wellFormed =>
          refine .ensures .ensured sound (fun id => by simp [KeyCall.grants]) (fun after id named => ?_) input.id
          refine ⟨by simp, ?_, by simp [KeyCall.grants], by simp [KeyCall.Revokes]⟩
          simp only [KeyCall.mk.injEq, KeyRequest.adopt.injEq, KeyPhase.ensured.injEq, reduceCtorEq, and_false, or_false]
          rintro _ _ _ _ ⟨⟨rfl, rfl, rfl⟩, rfl⟩
          exact ⟨wellFormed, named⟩
      · exact .quiet sound.grows rfl .threw (by simp [KeyCall.grants])
  · next name key label namespaceId asked at' =>
      cases asked
      cases at'
      have asked := knows.adopts name key label namespaceId (.inl rfl)
      obtain ⟨fault, failed, done⟩ | ⟨_, answered, done⟩ := KeyCall.settle_cases ⟨.adopt name key label, .ensured namespaceId⟩
        (tables.insertKeyOnce ⟨input.id, namespaceId, hashKey key, label, none⟩) fun _ => .stored namespaceId
      · rw [done]
        exact .fails sound (insertKeyOnce_error failed) fault
      · rw [done]
        exact .stores sound asked
  · next name key label namespaceId asked at' =>
      cases asked
      cases at'
      have asked := knows.adopts name key label namespaceId (.inr rfl)
      obtain ⟨fault, -, done⟩ | ⟨identity, answered, done⟩ := KeyCall.settle_cases ⟨.adopt name key label, .stored namespaceId⟩
        (tables, tables.adopted (hashKey key) namespaceId name) fun identity => .answered (.adopted identity)
      · rw [done]
        exact .fails sound rfl fault
      · rw [done]
        exact .adopts sound asked answered
  · next name asked at' =>
      cases asked
      cases at'
      exact .quiet sound.grows rfl ⟨by simp, by simp, by simp [KeyCall.grants], by simp [KeyCall.Revokes]⟩ (by simp [KeyCall.grants])
  · next key asked at' =>
      cases asked
      cases at'
      exact .identifies sound
  · next keyId asked at' =>
      cases asked
      cases at'
      exact .revoking sound input.now
  · exact ⟨sound.grows, knows, fun keyId => .inl, fun row listed => .inl ⟨row, listed, rfl, rfl⟩, fun key identity granted revoked => rfl⟩

theorem keyCalls_keep (hashKey : String → String) :
    Guarantees (KeyCall.next hashKey) (fun call => call.phase = .called) KeyTables.Sound KeyTables.Onward (KeyCall.Knows hashKey) where
  starts _ _ called := .called called
  sound _ call input sound knows := (call.next_step sound knows input).grows.sound
  onward _ call input sound knows := (call.next_step sound knows input).grows.onward
  learns _ call input sound knows := (call.next_step sound knows input).knows
  lasts _ _ _ onward knows := knows.onward onward

theorem emptyKeyWorld_sound : emptyKeyWorld.store.Sound := ⟨by decide, by decide, by decide, by decide, by simp [emptyKeyWorld]⟩

theorem KeyRun.knows (run : KeyRun hashKey emptyKeyWorld world) :
    world.store.Sound ∧ ∀ call ∈ world.calls, call.Knows hashKey world.store :=
  SharedRun.knows run (keyCalls_keep hashKey) emptyKeyWorld_sound (by simp [emptyKeyWorld])

/-- A call keeps its request, and its answer once it has one. -/
theorem KeyCall.next_request (call : KeyCall) (tables : KeyTables) (input : KeyInput) :
    (call.next hashKey tables input).2.request = call.request := by
  have settled {A : Type} (call : KeyCall) (done : KeyTables × Except KeyFault A) (phase : A → KeyPhase) :
      (call.settle done phase).2.request = call.request := by
    obtain ⟨fault, -, same⟩ | ⟨answer, -, same⟩ := call.settle_cases done phase <;> rw [same]
  unfold KeyCall.next
  split <;> first | exact settled _ _ _ | rfl | skip
  split
  · exact settled _ _ _
  · rfl

theorem KeyCall.next_answered {answer : KeyAnswer} (answered : call.phase = .answered answer) (tables : KeyTables) (input : KeyInput) :
    (call.next hashKey tables input).2 = call := by
  obtain ⟨request, phase⟩ := call
  obtain rfl : phase = .answered answer := answered
  cases request <;> rfl

theorem KeyRun.revoked (run : KeyRun hashKey emptyKeyWorld world) :
    world.store.Revoked keyId ↔ ∃ call ∈ world.calls, call.Revokes keyId := by
  refine ⟨fun revoked => ?_, fun ⟨call, listed, revokes⟩ => (run.knows.2 call listed).revokes keyId revokes⟩
  refine SharedRun.traced KeyTables.Revoked (fun call keyId => call.Revokes keyId) run (keyCalls_keep hashKey)
    (fun tables call input fact sound knows => (call.next_step sound knows input).revokes fact) (fun tables call input fact revokes => ?_)
    emptyKeyWorld_sound (by simp [emptyKeyWorld]) (by simp [emptyKeyWorld, KeyTables.Revoked]) keyId revoked
  have answered : call.phase = .answered (.revoked true) := congrArg KeyCall.phase revokes
  rw [KeyCall.next_answered answered]
  exact revokes

/-- A key that any call has granted authenticates as that identity, in the same run and in every run that goes on from there, until
a call has revoked it, and as none from then on. Every other call that grants the key grants the same identity, and once a call has
revoked it no further call grants it. -/
theorem apiKeys_settled (run : KeyRun hashKey emptyKeyWorld world) (goes : KeyRun hashKey world later) (listed : call ∈ world.calls)
    (granted : call.grants = some (key, identity)) :
    ((∀ call ∈ later.calls, ¬ call.Revokes identity.keyId) → later.store.authenticate hashKey key = some identity) ∧
      ((∃ call ∈ later.calls, call.Revokes identity.keyId) → later.store.authenticate hashKey key = none) ∧
      (∀ other ∈ later.calls, ∀ key' identity', other.grants = some (key', identity') → hashKey key' = hashKey key → identity' = identity) ∧
      ((∃ call ∈ world.calls, call.Revokes identity.keyId) → ∀ (index : Nat) (other : KeyCall) (key' : String)
        (identity' : AuthenticatedNamespace), later.calls[index]? = some other → other.grants = some (key', identity') →
          identity'.keyId = identity.keyId → world.calls[index]? = some other) := by
  have before := run.knows
  have reached : KeyRun hashKey emptyKeyWorld later := SharedRun.trans run goes
  have after := reached.knows
  obtain ⟨begins, registered⟩ := (before.2 call listed).grants key identity granted
  have stays : later.store.Registered (hashKey key) identity :=
    SharedRun.stays (fun tables => tables.Registered (hashKey key) identity) goes (keyCalls_keep hashKey)
      (fun tables after onward registered => registered.onward onward) before.1 before.2 registered
  obtain ⟨none', some'⟩ := authenticate_registered after.1 begins stays
  refine ⟨fun unrevoked => some' fun revoked => ?_, fun revokes => none' (reached.revoked.mpr revokes),
    fun other listed' key' identity' granted' same => ?_, fun revokes index other key' identity' found granted' same => ?_⟩
  · obtain ⟨call, listed', revokes⟩ := reached.revoked.mp revoked
    exact unrevoked call listed' revokes
  · have registered' := ((after.2 other listed').grants key' identity' granted').2
    rw [same] at registered'
    exact after.1.registered_unique registered' stays
  · refine SharedRun.barred (fun tables => tables.Revoked identity.keyId)
      (fun call => ∃ key' identity', call.grants = some (key', identity') ∧ identity'.keyId = identity.keyId) goes
      (keyCalls_keep hashKey) (fun tables after onward revoked => revoked.onward onward) (fun call called outcome => ?_)
      (fun tables call input sound knows revoked outcome => ?_) before.1 before.2 (run.revoked.mpr revokes) index other found
      ⟨key', identity', granted', same⟩
    · obtain ⟨key', identity', granted', -⟩ := outcome
      simp [KeyCall.grants, called] at granted'
    · obtain ⟨key', identity', granted', own⟩ := outcome
      exact (call.next_step sound knows input).grants key' identity' granted' (own ▸ revoked)

/-- The key that is made of 24 zero bytes. -/
def issuedKey : String := keyPrefix ++ String.ofList (encodeBytes ((List.replicate 24 (0 : UInt8)).map UInt8.toNat))

def issuedIdentity : AuthenticatedNamespace := ⟨1, "acme", 2⟩

/-- A key has been issued. -/
def issuedWorld : KeyWorld :=
  ⟨⟨[⟨1, "acme"⟩], [⟨2, 1, issuedKey, "ci", none⟩]⟩, [⟨.issue "acme" "ci", .answered (.issued issuedKey issuedIdentity)⟩]⟩

/-- And then it has been revoked. -/
def revokedWorld : KeyWorld :=
  ⟨⟨[⟨1, "acme"⟩], [⟨2, 1, issuedKey, "ci", some .epoch⟩]⟩,
    [⟨.issue "acme" "ci", .answered (.issued issuedKey issuedIdentity)⟩, ⟨.revoke 2, .answered (.revoked true)⟩]⟩

theorem issuedWorld_reached : KeyRun id emptyKeyWorld issuedWorld := by
  have called : KeyRun id emptyKeyWorld ⟨⟨[], []⟩, [⟨.issue "acme" "ci", .called⟩]⟩ := .arrives .refl rfl
  have first : [(⟨.issue "acme" "ci", .called⟩ : KeyCall)][0]? = some ⟨.issue "acme" "ci", .called⟩ := rfl
  have ensured : KeyRun id emptyKeyWorld ⟨⟨[⟨1, "acme"⟩], []⟩, [⟨.issue "acme" "ci", .ensured 1⟩]⟩ :=
    .advances called ⟨1, [], .epoch⟩ first
  have second : [(⟨.issue "acme" "ci", .ensured 1⟩ : KeyCall)][0]? = some ⟨.issue "acme" "ci", .ensured 1⟩ := rfl
  exact .advances ensured ⟨2, List.replicate 24 0, .epoch⟩ second

theorem revokedWorld_reached : KeyRun id issuedWorld revokedWorld := by
  have called : KeyRun id issuedWorld ⟨issuedWorld.store, issuedWorld.calls ++ [⟨.revoke 2, .called⟩]⟩ := .arrives .refl rfl
  have found : (issuedWorld.calls ++ [⟨.revoke 2, .called⟩])[1]? = some ⟨.revoke 2, .called⟩ := rfl
  exact .advances called ⟨0, [], .epoch⟩ found

theorem apiKeys_settled_issued : issuedWorld.store.authenticate id issuedKey = some issuedIdentity ∧
    revokedWorld.store.authenticate id issuedKey = none := by
  have listed : (⟨.issue "acme" "ci", .answered (.issued issuedKey issuedIdentity)⟩ : KeyCall) ∈ issuedWorld.calls :=
    List.mem_singleton_self _
  refine ⟨(apiKeys_settled issuedWorld_reached .refl listed rfl).1 ?_,
    (apiKeys_settled issuedWorld_reached revokedWorld_reached listed rfl).2.1 ⟨_, List.mem_cons_of_mem _ (List.mem_singleton_self _), rfl⟩⟩
  simp [issuedWorld, KeyCall.Revokes]

/-- A key authenticates only where a call gave it out, or was asked to register it, for the namespace that it authenticates as, or
did so with a key of the same hash; and only while no call has revoked it. -/
theorem apiKeys_traced (run : KeyRun hashKey emptyKeyWorld world) (found : world.store.authenticate hashKey key = some identity) :
    (∃ call ∈ world.calls, ∃ key', hashKey key' = hashKey key ∧ call.Registers identity.namespaceName key') ∧
      ∀ call ∈ world.calls, ¬ call.Revokes identity.keyId := by
  obtain ⟨-, named, row, listed, id, hash, ns, live⟩ := authenticate_spec found
  have sound := run.knows.1
  refine ⟨?_, fun call listed' revokes => sound.unrevoked listed live (id ▸ run.revoked.mpr ⟨call, listed', revokes⟩)⟩
  refine SharedRun.traced (fun tables (fact : String × String) => ∃ row ∈ tables.apiKeys, row.keyHash = fact.1 ∧
      tables.Named row.namespaceId fact.2)
    (fun call fact => ∃ key', hashKey key' = fact.1 ∧ call.Registers fact.2 key') run (keyCalls_keep hashKey)
    (fun tables call input fact sound knows made => ?_) (fun tables call input fact cause => ?_) emptyKeyWorld_sound
    (by simp [emptyKeyWorld]) (by simp [emptyKeyWorld]) (hashKey key, identity.namespaceName) ⟨row, listed, hash, ns ▸ named⟩
  · obtain ⟨row, listed, hash, named⟩ := made
    have step := call.next_step sound knows input
    obtain ⟨row', before, sameHash, sameNamespace⟩ | ⟨key', name, hash', named', registers⟩ := step.registers row listed
    · obtain ⟨name, there⟩ := sound.foreign row' before
      have sameName := step.grows.sound.named_unique (sameNamespace ▸ there.onward step.grows.onward) named
      exact .inl ⟨row', before, sameHash.trans hash, sameName ▸ there⟩
    · have sameName := step.grows.sound.named_unique named' named
      exact .inr ⟨key', hash'.symm.trans hash, sameName ▸ registers⟩
  · obtain ⟨key', hash, ⟨label, identity, rfl⟩ | ⟨label, phase, rfl, wellFormed⟩⟩ := cause
    · exact ⟨key', hash, .inl ⟨label, identity, rfl⟩⟩
    · exact ⟨key', hash, .inr ⟨label, _, congrArg (KeyCall.mk · _) (KeyCall.next_request _ tables input), wellFormed⟩⟩

theorem apiKeys_traced_issued : (∃ call ∈ issuedWorld.calls, ∃ key', id key' = id issuedKey ∧
    call.Registers issuedIdentity.namespaceName key') ∧ ∀ call ∈ issuedWorld.calls, ¬ call.Revokes issuedIdentity.keyId := by
  have begins : hasKeyPrefix issuedKey = true := hasKeyPrefix_issued _
  have found : issuedWorld.store.authenticate id issuedKey = some issuedIdentity := by
    simp [KeyTables.authenticate, begins, issuedWorld, issuedIdentity]
  exact apiKeys_traced issuedWorld_reached found

end Runs

end DurableExecution.Api
