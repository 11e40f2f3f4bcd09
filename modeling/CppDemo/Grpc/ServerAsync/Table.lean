import CppDemo.Grpc.ServerAsync.Server
import CppDemo.Grpc.ServerAsync.SessionProtocol

/-!
# The session table

Between the threads of the server and the protocol of a single session lies the table: the session
objects, the map from ids to objects, the id allocator, and everything that was started and not yet
dealt with, wherever it is now. `TableStep` lists what the server does to it, with each completion
going to the session that started the operation. As long as ids survive their passage through a tag,
that is up to `2 ^ 62` sessions, a step of the table is a step of one session and leaves every other
session as it is (`TableStep.view`).

## Main definitions

* `Table`, `TableStep` : the table and its steps.
* `Table.view` : what concerns one session.
* `Table.Inv` : ids, tags and keys agree, and every session is in one of its phases.

## Main results

* `TableStep.view` : a step of the table, seen from one session.
* `TableStep.inv` : the invariant is kept while there are at most `2 ^ 62` sessions.
-/

namespace CppDemo.Grpc.ServerAsync

/-- An outstanding operation and its outcome, `none` while it is in flight. -/
abbrev Pending := Op × Option Bool

/-- The sessions and the outstanding operations of the server. -/
structure Table where
  objects : List SessionObject
  sessions : AList fun _ : UInt64 ↦ Nat
  allocator : UInt64
  /-- The session constructed by `AddNewSession` and not yet inserted. -/
  constructing : Option Nat
  pending : Multiset Pending

/-- How many sessions can be created before the id of a session no longer fits into its tag. -/
def maxSessions : Nat := 2 ^ 62

theorem ofNat_inj {i j : Nat} (hi : i < maxSessions) (hj : j < maxSessions) :
    UInt64.ofNat i = UInt64.ofNat j ↔ i = j := by
  refine ⟨fun h ↦ ?_, fun h ↦ h ▸ rfl⟩
  have h := congrArg UInt64.toNat h
  unfold maxSessions at hi hj
  rwa [UInt64.toNat_ofNat_of_lt' (by simp only [UInt64.size]; omega),
    UInt64.toNat_ofNat_of_lt' (by simp only [UInt64.size]; omega)] at h

/-- The tag of an operation leads back to its session and event. -/
theorem detagify_tagify_ofNat {i : Nat} (hi : i < maxSessions) (event : SessionEvent) :
    detagify (tagify (UInt64.ofNat i) event) = (UInt64.ofNat i, event.toWord) := by
  unfold maxSessions at hi
  refine detagify_tagify ?_ event
  rw [UInt64.toNat_ofNat_of_lt' (by simp only [UInt64.size]; omega)]
  exact hi

/-- The operations of one session among the outstanding ones. -/
def tokensOf (i : Nat) (m : Multiset Pending) : Multiset Token :=
  (m.filter fun t ↦ t.1.session = i).map fun t ↦ (t.1.event, t.2)

@[simp] theorem tokensOf_zero (i : Nat) : tokensOf i 0 = 0 := rfl

@[simp] theorem tokensOf_add (i : Nat) (m n : Multiset Pending) :
    tokensOf i (m + n) = tokensOf i m + tokensOf i n := by
  simp only [tokensOf, Multiset.filter_add, Multiset.map_add]

theorem tokensOf_cons_self {i : Nat} {t : Pending} (h : t.1.session = i)
    (m : Multiset Pending) : tokensOf i (t ::ₘ m) = (t.1.event, t.2) ::ₘ tokensOf i m := by
  simp [tokensOf, h]

theorem tokensOf_cons_of_ne {i : Nat} {t : Pending} (h : t.1.session ≠ i)
    (m : Multiset Pending) : tokensOf i (t ::ₘ m) = tokensOf i m := by
  simp [tokensOf, h]

theorem mem_tokensOf {i : Nat} {m : Multiset Pending} {event : SessionEvent} {w : Option Bool} :
    (event, w) ∈ tokensOf i m ↔ ∃ op, (op, w) ∈ m ∧ op.session = i ∧ op.event = event := by
  simp only [tokensOf, Multiset.mem_map, Multiset.mem_filter, Prod.mk.injEq]
  exact ⟨fun ⟨t, ⟨hm, hi⟩, he, hw⟩ ↦ ⟨t.1, hw ▸ hm, hi, he⟩,
    fun ⟨op, hm, hi, he⟩ ↦ ⟨(op, w), ⟨hm, hi⟩, he, rfl⟩⟩

/-- The operations started by the stream calls of a session. -/
def callPending (i : Nat) (sessionId : UInt64) (calls : List StreamCall) : Multiset Pending :=
  ((calls.map (State.callOp i sessionId) : List Op) : Multiset Op).map fun op ↦ (op, none)

@[simp] theorem callPending_cons (i : Nat) (sessionId : UInt64) (call : StreamCall)
    (calls : List StreamCall) : callPending i sessionId (call :: calls) =
      (State.callOp i sessionId call, none) ::ₘ callPending i sessionId calls := rfl

theorem tokensOf_callPending_self (i : Nat) (sessionId : UInt64) (calls : List StreamCall) :
    tokensOf i (callPending i sessionId calls) = callTokens calls := by
  induction calls with
  | nil => rfl
  | cons call calls ih =>
    rw [callPending_cons, callTokens_cons, ← ih]
    exact tokensOf_cons_self (t := (State.callOp i sessionId call, none)) rfl _

theorem tokensOf_callPending_of_ne {i j : Nat} (h : i ≠ j) (sessionId : UInt64)
    (calls : List StreamCall) : tokensOf j (callPending i sessionId calls) = 0 := by
  induction calls with
  | nil => rfl
  | cons call calls ih =>
    rw [callPending_cons, ← ih]
    exact tokensOf_cons_of_ne (t := (State.callOp i sessionId call, none)) h _

theorem mem_callPending {i : Nat} {sessionId : UInt64} {calls : List StreamCall} {t : Pending}
    (h : t ∈ callPending i sessionId calls) :
    t.1.session = i ∧ t.1.tag = tagify sessionId t.1.event ∧
      (t.1.event = .readDone ∨ t.1.event = .writeDone) := by
  obtain ⟨op, hop, rfl⟩ := Multiset.mem_map.mp h
  obtain ⟨call, -, rfl⟩ := List.mem_map.mp (Multiset.mem_coe.mp hop)
  refine ⟨rfl, rfl, ?_⟩
  cases call
  · exact Or.inl rfl
  · exact Or.inr rfl

namespace Table

/-- Where a session object is in its life. -/
def life (T : Table) (i : Nat) : Life :=
  if T.constructing = some i then .constructing
  else if T.sessions.lookup (UInt64.ofNat i) = some i then .registered
  else .removed

/-- What concerns one session object. -/
def view (T : Table) (i : Nat) (o : SessionObject) : SessionView :=
  ⟨o, T.life i, tokensOf i T.pending⟩

/-- The invariant of the table. -/
structure Inv (T : Table) : Prop where
  allocator : T.allocator = UInt64.ofNat T.objects.length
  sessionId : ∀ i o, T.objects[i]? = some o → o.session.sessionId = UInt64.ofNat i
  ops : ∀ t ∈ T.pending, t.1.session < T.objects.length ∧
    t.1.tag = tagify (UInt64.ofNat t.1.session) t.1.event
  keys : ∀ k i, T.sessions.lookup k = some i → i < T.objects.length ∧ k = UInt64.ofNat i
  constructing : ∀ i, T.constructing = some i →
    i < T.objects.length ∧ T.sessions.lookup (UInt64.ofNat i) = none
  view : ∀ i o, T.objects[i]? = some o → (T.view i o).Inv

end Table

/-- A session that the table holds is registered. -/
theorem Table.Inv.life_eq_registered {T : Table} (hT : T.Inv) {i : Nat}
    (h : T.sessions.lookup (UInt64.ofNat i) = some i) : T.life i = .registered := by
  have hne : T.constructing ≠ some i := by
    intro hi
    simp [(hT.constructing i hi).2] at h
  simp only [Table.life, hne, h, ↓reduceIte]

/-- A session that is neither being constructed nor removed is in the table. -/
theorem Table.lookup_of_life {T : Table} {i : Nat} (hc : T.constructing ≠ some i)
    (h : T.life i ≠ .removed) : T.sessions.lookup (UInt64.ofNat i) = some i := by
  by_contra hnone
  exact h (by simp only [Table.life, hc, hnone, ↓reduceIte])

/-- The tag of an outstanding operation leads back to its session and event. -/
theorem Table.Inv.detagify {T : Table} (hT : T.Inv) (hb : T.objects.length ≤ maxSessions)
    {t : Pending} (ht : t ∈ T.pending) :
    ServerAsync.detagify t.1.tag = (UInt64.ofNat t.1.session, t.1.event.toWord) := by
  obtain ⟨hlt, htag⟩ := hT.ops t ht
  rw [htag]
  exact detagify_tagify_ofNat (by omega) t.1.event

/-- The session found under the tag of an outstanding operation is the one that started it. -/
theorem Table.Inv.eq_of_lookup {T : Table} (hT : T.Inv) (hb : T.objects.length ≤ maxSessions)
    {t : Pending} (ht : t ∈ T.pending) {i : Nat}
    (h : T.sessions.lookup (ServerAsync.detagify t.1.tag).1 = some i) :
    i = t.1.session ∧ T.sessions.lookup (UInt64.ofNat i) = some i := by
  have hlt := (hT.ops t ht).1
  obtain ⟨hi, hkey⟩ := hT.keys _ i h
  rw [hT.detagify hb ht] at h hkey
  obtain rfl := (ofNat_inj (by omega) (by omega)).mp hkey
  exact ⟨rfl, h⟩

/-- What the server does to the table. -/
inductive TableStep : Table → Table → Prop
  | client {T : Table} {i : Nat} {o o' : SessionObject} (ho : T.objects[i]? = some o)
      (hsession : o'.session = o.session) (hhistory : o'.history = o.history)
      (hstream : ∃ more halfClosed cancelled, o'.stream =
        { o.stream with sent := o.stream.sent ++ more, halfClosed, cancelled }) :
      TableStep T { T with objects := T.objects.set i o' }
  | complete {T : Table} {op : Op} {ok : Bool} {rest : Multiset Pending} {o o' : SessionObject}
      (ho : T.objects[op.session]? = some o) (hd : o.deliver op.event ok = some o')
      (h : T.pending = (op, none) ::ₘ rest) :
      TableStep T { T with
        objects := T.objects.set op.session o', pending := (op, some ok) ::ₘ rest }
  | construct {T : Table} (h : T.constructing = none) :
      TableStep T { T with
        objects := T.objects ++ [.create T.allocator]
        allocator := T.allocator + 1
        constructing := some T.objects.length
        pending := ({ session := T.objects.length, event := .connected,
                      tag := tagify T.allocator .connected }, none) ::ₘ T.pending }
  | insert {T : Table} {i : Nat} (h : T.constructing = some i) :
      TableStep T { T with
        sessions := T.sessions.insert (UInt64.ofNat i) i, constructing := none }
  | drop {T : Table} {t : Pending} {rest : Multiset Pending} (h : T.pending = t ::ₘ rest)
      (hlife : T.life t.1.session = .removed) : TableStep T { T with pending := rest }
  | remove {T : Table} {op : Op} {rest : Multiset Pending}
      (h : T.pending = (op, some false) ::ₘ rest) (hlife : T.life op.session = .registered) :
      TableStep T { T with
        sessions := T.sessions.erase (UInt64.ofNat op.session), pending := rest }
  | process {T : Table} {op : Op} {rest : Multiset Pending} {o o' : SessionObject}
      {calls : List StreamCall} (h : T.pending = (op, some true) ::ₘ rest)
      (hlife : T.life op.session = .registered) (ho : T.objects[op.session]? = some o)
      (hp : o.processEvent op.event.toWord = some (o', calls)) :
      TableStep T { T with
        objects := T.objects.set op.session o'
        pending := callPending op.session o.session.sessionId calls + rest }
  | broadcast {T : Table} {i : Nat} {o : SessionObject} (ho : T.objects[i]? = some o)
      (hlife : T.life i = .registered) (response : HelloResponse) :
      TableStep T { T with
        objects := T.objects.set i (o.sendBroadcast response).1
        pending :=
          callPending i o.session.sessionId (o.sendBroadcast response).2 + T.pending }

private theorem getElem?_set_some {α : Type*} {l : List α} {i j : Nat} {x y : α}
    (h : (l.set j x)[i]? = some y) : (i = j ∧ y = x) ∨ (i ≠ j ∧ l[i]? = some y) := by
  by_cases hij : i = j
  · subst hij
    have hlt : i < l.length := by simpa using (List.getElem?_eq_some_iff.mp h).1
    rw [List.getElem?_set_self hlt] at h
    exact Or.inl ⟨rfl, (Option.some.inj h).symm⟩
  · rw [List.getElem?_set_ne (Ne.symm hij)] at h
    exact Or.inr ⟨hij, h⟩

/-! ### The sessions at a step

Each lemma is about the view of the session `i` after a step of one kind. -/

namespace Table

variable {T : Table} {i : Nat} {o' : SessionObject}

/-- The session `i` has been there before, and the step is one of the session or leaves it alone. -/
def Follows (T T' : Table) (i : Nat) (o' : SessionObject) : Prop :=
  ∃ o, T.objects[i]? = some o ∧
    (T'.view i o' = T.view i o ∨ SessionStep (T.view i o) (T'.view i o'))

/-- An operation of the session changes its outcome. -/
theorem follows_complete {op : Op} {ok : Bool} {rest : Multiset Pending} {o₁ o₁' : SessionObject}
    (ho : T.objects[op.session]? = some o₁) (hd : o₁.deliver op.event ok = some o₁')
    (h : T.pending = (op, none) ::ₘ rest)
    (ho' : (T.objects.set op.session o₁')[i]? = some o') :
    T.Follows { T with
      objects := T.objects.set op.session o₁', pending := (op, some ok) ::ₘ rest } i o' := by
  rcases getElem?_set_some ho' with ⟨rfl, rfl⟩ | ⟨hne, hold⟩
  · refine ⟨o₁, ho, Or.inr ?_⟩
    simp only [view, h, tokensOf_cons_self (t := (op, none)) rfl,
      tokensOf_cons_self (t := (op, some ok)) rfl]
    exact .complete hd
  · refine ⟨o', hold, Or.inl ?_⟩
    simp only [view, h, tokensOf_cons_of_ne (t := (op, none)) (Ne.symm hne),
      tokensOf_cons_of_ne (t := (op, some ok)) (Ne.symm hne)]
    rfl

/-- The table after a session has been constructed. -/
def construct (T : Table) : Table :=
  { T with
    objects := T.objects ++ [.create T.allocator]
    allocator := T.allocator + 1
    constructing := some T.objects.length
    pending := ({ session := T.objects.length, event := .connected,
                  tag := tagify T.allocator .connected }, none) ::ₘ T.pending }

/-- A session is constructed with its registration in flight. -/
theorem view_construct_self (hT : T.Inv)
    (ho' : T.construct.objects[T.objects.length]? = some o') :
    o' = .create (UInt64.ofNat T.objects.length) ∧
      T.construct.view T.objects.length o' = ⟨o', .constructing, {(.connected, none)}⟩ := by
  have hzero : tokensOf T.objects.length T.pending = 0 := by
    refine Multiset.eq_zero_of_forall_notMem fun ⟨event, w⟩ hmem ↦ ?_
    obtain ⟨op, hop, hsession, -⟩ := mem_tokensOf.mp hmem
    exact absurd (hT.ops _ hop).1 (by simp [hsession])
  have ho : o' = .create T.allocator := by simpa [construct] using ho'.symm
  have htokens := tokensOf_cons_self (i := T.objects.length) (t := ({
    session := T.objects.length, event := .connected
    tag := tagify T.allocator .connected }, none)) rfl T.pending
  refine ⟨hT.allocator ▸ ho, ?_⟩
  simp only [view, life, construct, ↓reduceIte, htokens, hzero]
  rfl

/-- The construction of a session leaves the other ones alone. -/
theorem follows_construct (hnone : T.constructing = none) (hne : i ≠ T.objects.length)
    (ho' : T.construct.objects[i]? = some o') : T.Follows T.construct i o' := by
  obtain ⟨hi, -⟩ := List.getElem?_eq_some_iff.mp ho'
  have hlt : i < T.objects.length := by
    simp only [construct, List.length_append, List.length_singleton] at hi
    omega
  simp only [construct, List.getElem?_append_left hlt] at ho'
  refine ⟨o', ho', Or.inl ?_⟩
  have hsome : some T.objects.length ≠ some i := by simpa using Ne.symm hne
  simp only [view, life, construct, hnone, hsome, reduceCtorEq, ↓reduceIte]
  rw [tokensOf_cons_of_ne (t := (_, none)) (Ne.symm hne)]
  rfl

theorem follows_insert (hT : T.Inv) (hb : T.objects.length ≤ maxSessions) {j : Nat}
    (hj : T.constructing = some j) (ho' : T.objects[i]? = some o') :
    T.Follows { T with
      sessions := T.sessions.insert (UInt64.ofNat j) j, constructing := none } i o' := by
  have hi : i < T.objects.length := (List.getElem?_eq_some_iff.mp ho').1
  have hjlt := (hT.constructing j hj).1
  refine ⟨o', ho', ?_⟩
  by_cases hij : i = j
  · subst hij
    refine Or.inr ?_
    simp only [view, life, hj, AList.lookup_insert, reduceCtorEq, ↓reduceIte]
    exact .register
  · have hkey : UInt64.ofNat i ≠ UInt64.ofNat j := fun h ↦
      hij ((ofNat_inj (by omega) (by omega)).mp h)
    have hsome : some j ≠ some i := by simpa using Ne.symm hij
    refine Or.inl ?_
    simp only [view, life, hj, hsome, AList.lookup_insert_ne hkey, reduceCtorEq, ↓reduceIte]

theorem follows_drop {t : Pending} {rest : Multiset Pending} (h : T.pending = t ::ₘ rest)
    (hlife : T.life t.1.session = .removed) (ho' : T.objects[i]? = some o') :
    T.Follows { T with pending := rest } i o' := by
  refine ⟨o', ho', ?_⟩
  by_cases hij : t.1.session = i
  · subst hij
    refine Or.inr ?_
    have hlife' : ({ T with pending := rest } : Table).life t.1.session = .removed := hlife
    simp only [view, h, tokensOf_cons_self rfl, hlife, hlife']
    exact .drop
  · refine Or.inl ?_
    simp only [view, h, tokensOf_cons_of_ne hij]
    rfl

theorem follows_remove (hT : T.Inv) (hb : T.objects.length ≤ maxSessions) {op : Op}
    {rest : Multiset Pending} (h : T.pending = (op, some false) ::ₘ rest)
    (hlife : T.life op.session = .registered) (ho' : T.objects[i]? = some o') :
    T.Follows { T with
      sessions := T.sessions.erase (UInt64.ofNat op.session), pending := rest } i o' := by
  have hi : i < T.objects.length := (List.getElem?_eq_some_iff.mp ho').1
  have hop : op.session < T.objects.length :=
    (hT.ops (op, some false) (by rw [h]; exact Multiset.mem_cons_self _ _)).1
  have hc : T.constructing ≠ some op.session := by
    intro hc
    simp [life, hc] at hlife
  refine ⟨o', ho', ?_⟩
  by_cases hij : op.session = i
  · subst hij
    refine Or.inr ?_
    simp only [view, h, tokensOf_cons_self (t := (op, some false)) rfl, hlife]
    simp only [life, hc, AList.lookup_erase, reduceCtorEq, ↓reduceIte]
    exact .remove
  · have hkey : UInt64.ofNat i ≠ UInt64.ofNat op.session := fun h ↦
      hij ((ofNat_inj (by omega) (by omega)).mp h).symm
    refine Or.inl ?_
    simp only [view, life, h, tokensOf_cons_of_ne (t := (op, some false)) hij,
      AList.lookup_erase_ne hkey]

theorem follows_process {op : Op} {rest : Multiset Pending} {o₁ o₁' : SessionObject}
    {calls : List StreamCall} (h : T.pending = (op, some true) ::ₘ rest)
    (hlife : T.life op.session = .registered) (ho : T.objects[op.session]? = some o₁)
    (hp : o₁.processEvent op.event.toWord = some (o₁', calls))
    (ho' : (T.objects.set op.session o₁')[i]? = some o') :
    T.Follows { T with
      objects := T.objects.set op.session o₁'
      pending := callPending op.session o₁.session.sessionId calls + rest } i o' := by
  rcases getElem?_set_some ho' with ⟨rfl, rfl⟩ | ⟨hne, hold⟩
  · refine ⟨o₁, ho, Or.inr ?_⟩
    have hlife' : ∀ objects pending, ({ T with objects, pending } : Table).life op.session =
      .registered := fun _ _ ↦ hlife
    simp only [view, h, tokensOf_cons_self (t := (op, some true)) rfl,
      tokensOf_add, tokensOf_callPending_self, hlife, hlife']
    exact .process hp
  · refine ⟨o', hold, Or.inl ?_⟩
    simp only [view, h, tokensOf_cons_of_ne (t := (op, some true)) (Ne.symm hne),
      tokensOf_add, tokensOf_callPending_of_ne (Ne.symm hne), Multiset.zero_add]
    rfl

theorem follows_broadcast {j : Nat} {o₁ : SessionObject} (ho : T.objects[j]? = some o₁)
    (hlife : T.life j = .registered) (response : HelloResponse)
    (ho' : (T.objects.set j (o₁.sendBroadcast response).1)[i]? = some o') :
    T.Follows { T with
      objects := T.objects.set j (o₁.sendBroadcast response).1
      pending :=
        callPending j o₁.session.sessionId (o₁.sendBroadcast response).2 + T.pending } i o' := by
  rcases getElem?_set_some ho' with ⟨rfl, rfl⟩ | ⟨hne, hold⟩
  · refine ⟨o₁, ho, Or.inr ?_⟩
    have hlife' : ∀ objects pending, ({ T with objects, pending } : Table).life i =
      .registered := fun _ _ ↦ hlife
    simp only [view, tokensOf_add, tokensOf_callPending_self, hlife, hlife']
    exact .broadcast response
  · refine ⟨o', hold, Or.inl ?_⟩
    simp only [view, tokensOf_add, tokensOf_callPending_of_ne (Ne.symm hne), Multiset.zero_add]
    rfl

end Table

/-- A step of the table is a step of one session and leaves every other session as it is. -/
theorem TableStep.view {T T' : Table} (h : TableStep T T') (hT : T.Inv)
    (hb : T'.objects.length ≤ maxSessions) {i : Nat} {o' : SessionObject}
    (ho' : T'.objects[i]? = some o') :
    (i = T.objects.length ∧ o' = .create (UInt64.ofNat i) ∧
      T'.view i o' = ⟨o', .constructing, {(.connected, none)}⟩) ∨
    ∃ o, T.objects[i]? = some o ∧
      (T'.view i o' = T.view i o ∨ SessionStep (T.view i o) (T'.view i o')) := by
  cases h with
  | client ho hsession hhistory hstream =>
    rcases getElem?_set_some ho' with ⟨rfl, rfl⟩ | ⟨-, hold⟩
    · exact Or.inr ⟨_, ho, Or.inr (.client hsession hhistory hstream)⟩
    · exact Or.inr ⟨o', hold, Or.inl rfl⟩
  | complete ho hd h => exact Or.inr (Table.follows_complete ho hd h ho')
  | construct hnone =>
    by_cases hlast : i = T.objects.length
    · subst hlast
      exact Or.inl ⟨rfl, Table.view_construct_self hT ho'⟩
    · exact Or.inr (Table.follows_construct hnone hlast ho')
  | insert hj => exact Or.inr (Table.follows_insert hT hb hj ho')
  | drop h hlife => exact Or.inr (Table.follows_drop h hlife ho')
  | remove h hlife => exact Or.inr (Table.follows_remove hT hb h hlife ho')
  | process h hlife ho hp => exact Or.inr (Table.follows_process h hlife ho hp ho')
  | broadcast ho hlife response => exact Or.inr (Table.follows_broadcast ho hlife response ho')

private theorem sessionId_of_set {T : Table} (hT : T.Inv) {j : Nat} {o o₁ : SessionObject}
    (ho : T.objects[j]? = some o) (hid : o₁.session.sessionId = o.session.sessionId) {i : Nat}
    {o' : SessionObject} (h : (T.objects.set j o₁)[i]? = some o') :
    o'.session.sessionId = UInt64.ofNat i := by
  rcases getElem?_set_some h with ⟨rfl, rfl⟩ | ⟨-, hold⟩
  · exact hid.trans (hT.sessionId i o ho)
  · exact hT.sessionId i o' hold

private theorem TableStep.sessionId {T T' : Table} (h : TableStep T T') (hT : T.Inv) :
    ∀ i o, T'.objects[i]? = some o → o.session.sessionId = UInt64.ofNat i := by
  intro i o' ho'
  cases h with
  | client ho hsession => exact sessionId_of_set hT ho (by rw [hsession]) ho'
  | complete ho hd => exact sessionId_of_set hT ho (SessionObject.deliver_sessionId hd) ho'
  | construct =>
    by_cases hlen : i < T.objects.length
    · rw [List.getElem?_append_left hlen] at ho'
      exact hT.sessionId i o' ho'
    · obtain ⟨hi, hlast⟩ := List.getElem?_eq_some_iff.mp ho'
      simp only [List.length_append, List.length_singleton] at hi
      obtain rfl : i = T.objects.length := by omega
      have hlast : o' = .create T.allocator := by simpa using hlast.symm
      rw [hlast, ← hT.allocator]
      rfl
  | insert => exact hT.sessionId i o' ho'
  | drop => exact hT.sessionId i o' ho'
  | remove => exact hT.sessionId i o' ho'
  | process h hlife ho hp =>
    exact sessionId_of_set hT ho (SessionObject.processEvent_sessionId hp) ho'
  | @broadcast _ o ho _ response =>
    exact sessionId_of_set hT ho (o.sendBroadcast_sessionId response) ho'

private theorem TableStep.ops {T T' : Table} (h : TableStep T T') (hT : T.Inv) :
    ∀ t ∈ T'.pending, t.1.session < T'.objects.length ∧
      t.1.tag = tagify (UInt64.ofNat t.1.session) t.1.event := by
  intro t ht
  have hcall {i : Nat} {o : SessionObject} {calls : List StreamCall}
      (ho : T.objects[i]? = some o) (hmem : t ∈ callPending i o.session.sessionId calls) :
      t.1.session < T.objects.length ∧
        t.1.tag = tagify (UInt64.ofNat t.1.session) t.1.event := by
    obtain ⟨hi, htag, -⟩ := mem_callPending hmem
    rw [hT.sessionId i o ho] at htag
    exact ⟨hi ▸ (List.getElem?_eq_some_iff.mp ho).1, hi ▸ htag⟩
  cases h with
  | client => simpa using hT.ops t ht
  | @complete op ok rest _ _ _ _ h =>
    rcases Multiset.mem_cons.mp ht with rfl | ht
    · simpa using hT.ops (op, none) (by rw [h]; exact Multiset.mem_cons_self _ _)
    · simpa using hT.ops t (by rw [h]; exact Multiset.mem_cons_of_mem ht)
  | construct =>
    rcases Multiset.mem_cons.mp ht with rfl | ht
    · exact ⟨by simp, by rw [hT.allocator]⟩
    · obtain ⟨hlt, htag⟩ := hT.ops t ht
      exact ⟨by simp only [List.length_append, List.length_singleton]; omega, htag⟩
  | insert => exact hT.ops t ht
  | drop h => exact hT.ops t (by rw [h]; exact Multiset.mem_cons_of_mem ht)
  | remove h => exact hT.ops t (by rw [h]; exact Multiset.mem_cons_of_mem ht)
  | process h hlife ho hp =>
    rcases Multiset.mem_add.mp ht with ht | ht
    · simpa using hcall ho ht
    · simpa using hT.ops t (by rw [h]; exact Multiset.mem_cons_of_mem ht)
  | broadcast ho =>
    rcases Multiset.mem_add.mp ht with ht | ht
    · simpa using hcall ho ht
    · simpa using hT.ops t ht

private theorem TableStep.keys {T T' : Table} (h : TableStep T T') (hT : T.Inv) :
    ∀ k i, T'.sessions.lookup k = some i → i < T'.objects.length ∧ k = UInt64.ofNat i := by
  intro k i hk
  cases h with
  | client => simpa using hT.keys k i hk
  | complete => simpa using hT.keys k i hk
  | construct =>
    obtain ⟨hlt, hkey⟩ := hT.keys k i hk
    exact ⟨by simp only [List.length_append, List.length_singleton]; omega, hkey⟩
  | @insert j hj =>
    by_cases hkj : k = UInt64.ofNat j
    · subst hkj
      rw [AList.lookup_insert] at hk
      obtain rfl := Option.some.inj hk
      exact ⟨(hT.constructing j hj).1, rfl⟩
    · rw [AList.lookup_insert_ne hkj] at hk
      exact hT.keys k i hk
  | drop => exact hT.keys k i hk
  | @remove op rest =>
    by_cases hkj : k = UInt64.ofNat op.session
    · subst hkj
      simp at hk
    · rw [AList.lookup_erase_ne hkj] at hk
      exact hT.keys k i hk
  | process => simpa using hT.keys k i hk
  | broadcast => simpa using hT.keys k i hk

/-- The table keeps its invariant while there are at most `maxSessions` sessions. -/
theorem TableStep.inv {T T' : Table} (h : TableStep T T')
    (hb : T'.objects.length ≤ maxSessions) (hT : T.Inv) : T'.Inv where
  allocator := by
    have hallocator := hT.allocator
    cases h <;> simp_all
  sessionId := h.sessionId hT
  ops := h.ops hT
  keys := h.keys hT
  constructing := by
    intro i hi
    cases h with
    | construct =>
      obtain rfl := Option.some.inj hi
      refine ⟨by simp, Option.eq_none_iff_forall_ne_some.mpr fun j hj ↦ ?_⟩
      obtain ⟨hlt, hkey⟩ := hT.keys _ j hj
      simp only [List.length_append, List.length_singleton] at hb
      exact absurd ((ofNat_inj (by omega) (by omega)).mp hkey) (by omega)
    | insert => simp at hi
    | drop => exact hT.constructing i hi
    | @remove op rest =>
      obtain ⟨hlt, hnone⟩ := hT.constructing i hi
      refine ⟨hlt, ?_⟩
      by_cases hkey : UInt64.ofNat i = UInt64.ofNat op.session
      · rw [hkey]
        exact AList.lookup_erase _ _
      · rw [AList.lookup_erase_ne hkey]
        exact hnone
    | _ => simpa using hT.constructing i hi
  view := by
    intro i o' ho'
    rcases h.view hT hb ho' with ⟨-, rfl, hnew⟩ | ⟨o, ho, hsame | hstep⟩
    · rw [hnew]
      exact SessionView.inv_create _
    · rw [hsame]
      obtain rfl : o' = o := congrArg SessionView.object hsame
      exact hT.view i o' ho
    · exact hstep.inv (hT.view i o ho)

end CppDemo.Grpc.ServerAsync
