import CppDemo.Foundation.Calls
import CppDemo.Grpc.ServerAsync.Locking

/-!
# The order in which the server locks

The threads do not wait for each other in a circle, because they lock in the order of ranks:
`mutex_sessions_` ranks below the mutexes of the sessions in the table. The mutex of a session that
has left the table ranks lowest, for whoever comes to it afterwards has not come from the table and
holds nothing. A session leaves the table only while nobody walks over it, so a thread that walks
over the table requests mutexes that rank above `mutex_sessions_`. What remains is what a handler
finds on its thread.

Source: `grpcdemo/server_async.cc`, lines 101–140, 191–345.

## Main definitions

* `Memory.rank` : the ranks.
* `State.Inv` : the invariant.

## Main results

* `deadlockFree_of_run` : along the runs that meet `interruptsFree` there is no deadlock.
* `exists_selfDeadlock` : a step that does not meet it leads to a thread that waits for itself.
-/

namespace CppDemo.Grpc.ServerAsync.Locking

open Transition Calls Locks

/-! ### The table of the sessions -/

/-- The order in which a thread locks: sessions that have left the table, `mutex_sessions_`, the
sessions in the table. -/
def Memory.rank (m : Memory) : Mutex → Nat
  | .sessions => 1
  | .session i => if i ∈ m.objects then 2 else 0

/-- Session objects are created, and put into the table, once. -/
structure Memory.Evolves (m m' : Memory) : Prop where
  created : m.created ≤ m'.created
  objects : ∀ i ∈ m'.objects, i ∈ m.objects ∨ m.created ≤ i ∧ i < m'.created

section Memory

variable {m m' : Memory} {i : Nat} {l : Mutex}

theorem Memory.rank_eq_zero : m.rank l = 0 ↔ m.dead l = true := by
  cases l <;> simp [rank, dead]

theorem Memory.mem_objects_of_getSession {sessionId : UInt64}
    (h : m.getSession sessionId = some i) : i ∈ m.objects :=
  List.mem_map.mpr ⟨⟨sessionId, i⟩, AList.mem_lookup_iff.mp h, rfl⟩

private theorem mem_objects_of_erase {sessions : AList fun _ : UInt64 ↦ Nat} {sessionId : UInt64}
    (h : i ∈ (sessions.erase sessionId).entries.map Sigma.snd) :
    i ∈ sessions.entries.map Sigma.snd :=
  ((List.kerase_sublist sessionId sessions.entries).map Sigma.snd).subset h

theorem Memory.Evolves.refl (h : m'.sessions = m.sessions) (hcreated : m'.created = m.created) :
    m.Evolves m' where
  created := hcreated.ge
  objects i hi := Or.inl (by rwa [Memory.objects, h] at hi)

theorem Memory.evolves_addNewSession : m.Evolves m.addNewSession where
  created := Nat.le_succ _
  objects i hi := by
    rw [Memory.objects, addNewSession, AList.entries_insert, List.map_cons, List.mem_cons] at hi
    rcases hi with rfl | hi
    · exact Or.inr ⟨le_rfl, Nat.lt_succ_self _⟩
    · exact Or.inl (mem_objects_of_erase hi)

theorem Memory.evolves_removeSession {sessionId : UInt64} :
    m.Evolves (m.removeSession sessionId) where
  created := le_rfl
  objects _ hi := Or.inl (mem_objects_of_erase hi)

/-- A session that has left the table does not come back. -/
theorem Memory.Evolves.dead (h : m.Evolves m') (hl : m.dead l = true)
    (hcreated : ∀ i, l = .session i → i < m.created) : m'.dead l = true := by
  cases l with
  | sessions => simp [Memory.dead] at hl
  | session i =>
    have hi := hcreated i rfl
    simp only [Memory.dead, decide_eq_true_eq] at hl ⊢
    intro hmem
    rcases h.objects i hmem with hold | ⟨hle, -⟩
    · exact hl hold
    · omega

end Memory

/-! ### What a frame refers to -/

/-- The sessions to which the loop over the table comes are in the table. -/
def SweepPc.Fits (m : Memory) : SweepPc → Prop
  | .next remaining => ∀ i ∈ remaining, i ∈ m.objects
  | .lock session remaining | .locked session remaining => ∀ i ∈ session :: remaining, i ∈ m.objects

/-- The session whose event is processed has been constructed. -/
def LoopPc.Fits (m : Memory) : LoopPc → Prop
  | .process session | .processing session => session < m.created
  | _ => True

def Frame.Fits (m : Memory) : Frame → Prop
  | .accepter pc | .worker pc => pc.Fits m
  | .broadcast (.sweep pc) | .stop (.sweep pc) => pc.Fits m
  | _ => True

/-! ### What a step does -/

section Effect

variable {π : Type*} {holds : π → Multiset (Mutex × Mode)} {requests : π → Option (Mutex × Mode)}
  {Fits : Memory → π → Prop} {m m' : Memory} {pc : π} {pc' : Option π} {c : Choice}

/-- What a step from one place to another does to the mutexes and to the table. -/
structure Effect (holds : π → Multiset (Mutex × Mode)) (requests : π → Option (Mutex × Mode))
    (Fits : Memory → π → Prop) (m : Memory) (pc : π) (pc' : Option π) (m' : Memory) : Prop where
  /-- It locks the mutex that is requested, or nothing is requested and it locks nothing. -/
  mutexes : (∃ l q, requests pc = some l ∧ pc' = some q ∧ holds q = l ::ₘ holds pc) ∨
    requests pc = none ∧ ∀ q, pc' = some q → holds q ≤ holds pc
  evolves : m.Evolves m'
  table : m'.objects = m.objects ∨ (.sessions, .exclusive) ∈ holds pc
  fits : Fits m pc → ∀ q, pc' = some q → Fits m' q

namespace Effect

/-- A step that locks. -/
theorem lock {l : Mutex × Mode} {q : π} (hrequests : requests pc = some l)
    (hholds : holds q = l ::ₘ holds pc) (hfits : Fits m pc → Fits m q) :
    Effect holds requests Fits m pc (some q) m where
  mutexes := Or.inl ⟨l, q, hrequests, rfl, hholds⟩
  evolves := .refl rfl rfl
  table := Or.inl rfl
  fits hpc _ hq := Option.some.inj hq ▸ hfits hpc

/-- A step that locks nothing and does not touch the table. -/
theorem unlock (hsessions : m'.sessions = m.sessions) (hcreated : m'.created = m.created)
    (hrequests : requests pc = none) (hholds : ∀ q, pc' = some q → holds q ≤ holds pc)
    (hfits : Fits m pc → ∀ q, pc' = some q → Fits m' q) :
    Effect holds requests Fits m pc pc' m' where
  mutexes := Or.inr ⟨hrequests, hholds⟩
  evolves := .refl hsessions hcreated
  table := Or.inl (by rw [Memory.objects, hsessions]; rfl)
  fits := hfits

/-- A step that leaves the function. -/
theorem leave (hrequests : requests pc = none) : Effect holds requests Fits m pc none m :=
  unlock rfl rfl hrequests (fun _ h ↦ by simp at h) (fun _ _ h ↦ by simp at h)

/-- A step that locks nothing. -/
theorem go {q : π} (hrequests : requests pc = none) (hholds : holds q ≤ holds pc)
    (hfits : Fits m pc → Fits m q) : Effect holds requests Fits m pc (some q) m :=
  unlock rfl rfl hrequests (fun _ hq ↦ Option.some.inj hq ▸ hholds)
    (fun hpc _ hq ↦ Option.some.inj hq ▸ hfits hpc)

/-- A step of a part of the code while more is held around it. -/
theorem map {F : π → Frame} (outer : Multiset (Mutex × Mode))
    (hholds : ∀ pc, (F pc).holds = outer + holds pc)
    (hrequests : ∀ pc, (F pc).requests = requests pc)
    (hfits : ∀ m pc, (F pc).Fits m ↔ Fits m pc) (h : Effect holds requests Fits m pc pc' m') :
    Effect Frame.holds Frame.requests (fun m f ↦ f.Fits m) m (F pc) (pc'.map F) m' where
  mutexes := by
    rcases h.mutexes with ⟨l, q, hl, rfl, hq⟩ | ⟨hl, hle⟩
    · refine Or.inl ⟨l, F q, (hrequests pc).trans hl, rfl, ?_⟩
      rw [hholds, hholds, hq, Multiset.add_cons]
    · refine Or.inr ⟨(hrequests pc).trans hl, fun g hg ↦ ?_⟩
      obtain ⟨q, hq, rfl⟩ := Option.map_eq_some_iff.mp hg
      rw [hholds, hholds]
      exact add_le_add_right (hle q hq) outer
  evolves := h.evolves
  table := h.table.imp_right fun hmem ↦ by
    rw [hholds]
    exact Multiset.mem_add.mpr (Or.inr hmem)
  fits hf g hg := by
    obtain ⟨q, hq, rfl⟩ := Option.map_eq_some_iff.mp hg
    exact (hfits m' q).mpr (h.fits ((hfits m pc).mp hf) q hq)

end Effect

/-- The loop of the accepter or of the worker. -/
theorem effect_of_completionLoop {entry pc : LoopPc} {pc' : Option LoopPc}
    (hentry : entry.holds = 0) (hentry' : ∀ m, entry.Fits m)
    (hvalues : ∀ i ∈ m.objects, i < m.created)
    (h : completionLoop entry m pc c = some (pc', m')) :
    Effect LoopPc.holds LoopPc.requests (fun m pc ↦ pc.Fits m) m pc pc' m' := by
  cases pc <;> cases c
  case test.go =>
    cases h
    cases m.running with
    | true => exact .go rfl hentry.le fun _ ↦ hentry' m
    | false => exact .leave rfl
  case add.go | get.go | remove.go =>
    cases h
    exact .lock rfl rfl fun _ ↦ trivial
  case process.go =>
    cases h
    exact .lock rfl rfl id
  case adding.go =>
    cases h
    exact ⟨Or.inr ⟨rfl, fun q hq ↦ Option.some.inj hq ▸ Multiset.zero_le _⟩,
      Memory.evolves_addNewSession, Or.inr (Multiset.mem_singleton_self _),
      fun _ q hq ↦ Option.some.inj hq ▸ trivial⟩
  case removing.go =>
    cases h
    exact ⟨Or.inr ⟨rfl, fun q hq ↦ Option.some.inj hq ▸ Multiset.zero_le _⟩,
      Memory.evolves_removeSession, Or.inr (Multiset.mem_singleton_self _),
      fun _ q hq ↦ Option.some.inj hq ▸ trivial⟩
  case next.completion | next.drained =>
    cases h
    exact .go rfl le_rfl fun _ ↦ trivial
  case getting.go sessionId ok =>
    cases h
    cases hget : m.getSession sessionId with
    | none => exact .go rfl (Multiset.zero_le _) fun _ ↦ trivial
    | some session =>
      cases ok with
      | true =>
        exact .go rfl (Multiset.zero_le _) fun _ ↦
          hvalues session (Memory.mem_objects_of_getSession hget)
      | false => exact .go rfl (Multiset.zero_le _) fun _ ↦ trivial
  case processing.go =>
    cases h
    exact .go rfl (hentry ▸ Multiset.zero_le _) fun _ ↦ hentry' m
  all_goals cases h

/-- The loop over the table. -/
theorem effect_of_sweepStep {pc pc' : SweepPc} (h : sweepStep pc c = some pc') :
    Effect SweepPc.holds SweepPc.requests (fun m pc ↦ pc.Fits m) m pc (some pc') m := by
  cases pc <;> cases c <;> simp only [sweepStep, reduceCtorEq] at h
  case next.session remaining i =>
    split_ifs at h with hi
    cases h
    refine .go rfl le_rfl fun hpc j hj ↦ ?_
    rcases List.mem_cons.mp hj with rfl | hj
    · exact hpc j hi
    · exact hpc j (List.mem_of_mem_erase hj)
  case lock.go =>
    cases h
    exact .lock rfl rfl id
  case locked.go session remaining =>
    cases h
    exact .go rfl (Multiset.zero_le _) fun hpc i hi ↦ hpc i (List.mem_cons_of_mem _ hi)

/-- The effect of a step of a frame. -/
abbrev FrameEffect := Effect Frame.holds Frame.requests fun m f ↦ f.Fits m

theorem effect_of_broadcastStep {pc : BroadcastPc} {pc' : Option BroadcastPc}
    (h : broadcastStep m pc c = some pc') :
    FrameEffect m (.broadcast pc) (pc'.map .broadcast) m := by
  unfold broadcastStep at h
  split at h
  · cases hrunning : m.running <;> rw [hrunning] at h <;> cases h
    · exact .leave rfl
    · exact .go rfl le_rfl fun _ ↦ trivial
  · cases h
    exact .lock rfl rfl fun _ ↦ trivial
  · cases hrunning : m.running <;> rw [hrunning] at h <;> cases h
    · exact .leave rfl
    · exact .go rfl le_rfl fun _ _ hi ↦ hi
  · cases h
    exact .go rfl (Multiset.zero_le _) fun _ ↦ trivial
  · obtain ⟨pc', hpc', rfl⟩ := Option.map_eq_some_iff.mp h
    exact (effect_of_sweepStep hpc').map (F := fun pc ↦ .broadcast (.sweep pc))
      {(.sessions, .shared)} (fun _ ↦ rfl) (fun _ ↦ rfl) (fun _ _ ↦ Iff.rfl)
  · cases h

theorem effect_of_stopStep {pc : StopPc} {pc' : Option StopPc}
    (h : stopStep m pc c = some (pc', m')) :
    FrameEffect m (.stop pc) (pc'.map .stop) m' := by
  unfold stopStep at h
  split at h
  · cases hrunning : m.running <;> rw [hrunning] at h <;> cases h
    · exact .leave rfl
    · exact .go rfl le_rfl fun _ ↦ trivial
  · cases h
    exact .unlock rfl rfl rfl (fun g hg ↦ Option.some.inj hg ▸ le_rfl)
      (fun _ g hg ↦ Option.some.inj hg ▸ trivial)
  · cases h
    exact .lock rfl rfl fun _ _ hi ↦ hi
  · cases h
    exact .go rfl (Multiset.zero_le _) fun _ ↦ trivial
  · obtain ⟨pc', hpc', h⟩ := Option.map_eq_some_iff.mp h
    cases h
    exact (effect_of_sweepStep hpc').map (F := fun pc ↦ .stop (.sweep pc))
      {(.sessions, .exclusive)} (fun _ ↦ rfl) (fun _ ↦ rfl) (fun _ _ ↦ Iff.rfl)
  · cases h
    exact .leave rfl
  · cases h

/-- Every step of a frame does this. -/
theorem effect_of_frameStep {f : Frame} {f' : Option Frame}
    (hvalues : ∀ i ∈ m.objects, i < m.created) (h : f.step m c = some (f', m')) :
    FrameEffect m f f' m' := by
  cases f with
  | outside => cases h
  | accepter pc =>
    obtain ⟨⟨pc', m'⟩, hpc', h⟩ := Option.map_eq_some_iff.mp h
    cases h
    have hfits (m : Memory) : LoopPc.add.Fits m := trivial
    exact (effect_of_completionLoop rfl hfits hvalues hpc').map 0
      (fun _ ↦ (zero_add _).symm) (fun _ ↦ rfl) (fun _ _ ↦ Iff.rfl)
  | worker pc =>
    obtain ⟨⟨pc', m'⟩, hpc', h⟩ := Option.map_eq_some_iff.mp h
    cases h
    have hfits (m : Memory) : LoopPc.next.Fits m := trivial
    exact (effect_of_completionLoop rfl hfits hvalues hpc').map 0
      (fun _ ↦ (zero_add _).symm) (fun _ ↦ rfl) (fun _ _ ↦ Iff.rfl)
  | broadcast pc =>
    obtain ⟨pc', hpc', h⟩ := Option.map_eq_some_iff.mp h
    cases h
    exact effect_of_broadcastStep hpc'
  | stop pc =>
    obtain ⟨⟨pc', m'⟩, hpc', h⟩ := Option.map_eq_some_iff.mp h
    cases h
    exact effect_of_stopStep hpc'

end Effect

/-! ### The order of the requests -/

/-- The call of `Stop` has passed its test and still locks. -/
def StopPc.passed : StopPc → Bool
  | .test | .shutdown => false
  | _ => true

/-- Handlers run on top of other code. Where one locks, what is below it holds mutexes of sessions
that have left the table, at most. -/
def Guarded (m : Memory) : List Frame → Prop
  | [] => True
  | .stop pc :: fs => (pc.passed = true → ∀ l ∈ heldBy fs, m.dead l.1 = true) ∧ Guarded m fs
  | _ :: fs => fs = []

/-- The invariant. -/
structure State.Inv (s : State) : Prop where
  values : ∀ i ∈ s.memory.objects, i < s.memory.created
  consistent : Consistent s.held
  fits : ∀ t ∈ s.threads, ∀ f ∈ t, f.Fits s.memory
  guarded : ∀ t ∈ s.threads, Guarded s.memory t

section Order

variable {m m' : Memory} {f : Frame} {f' : Option Frame} {fs : List Frame} {c : Choice}
  {l x : Mutex × Mode}

theorem mem_held : x ∈ heldBy fs ↔ ∃ f ∈ fs, x ∈ f.holds := by
  induction fs with
  | nil => simp [heldBy]
  | cons f fs ih => simp [heldBy, ih]

theorem holds_le_held (hf : f ∈ fs) : f.holds ≤ heldBy fs := by
  induction hf with
  | head fs => exact Multiset.le_add_right ..
  | tail g _ ih => exact ih.trans (Multiset.le_add_left ..)

/-- The loop over the table requests the mutex of a session in the table. -/
theorem SweepPc.Fits.rank_eq {pc : SweepPc} (hpc : pc.Fits m) (hl : pc.requests = some l) :
    pc.holds = 0 ∧ m.rank l.1 = 2 := by
  cases pc with
  | next | locked => simp [SweepPc.requests] at hl
  | lock session remaining =>
    cases hl
    exact ⟨rfl, if_pos (hpc session List.mem_cons_self)⟩

/-- A frame requests a mutex that ranks above those it holds. -/
theorem Frame.Fits.rank_lt (hf : f.Fits m) (hl : f.requests = some l) (hx : x ∈ f.holds) :
    m.rank x.1 < m.rank l.1 := by
  cases f with
  | outside => simp [Frame.requests] at hl
  | accepter pc | worker pc =>
    cases pc <;> simp [Frame.requests, LoopPc.requests] at hl <;>
      simp [Frame.holds, LoopPc.holds] at hx
  | broadcast pc =>
    cases pc with
    | test | retest => simp [Frame.requests, BroadcastPc.requests] at hl
    | lock => simp [Frame.holds, BroadcastPc.holds] at hx
    | sweep pc =>
      obtain ⟨hholds, hrank⟩ := SweepPc.Fits.rank_eq hf hl
      obtain rfl : x = (.sessions, .shared) := by
        simpa [Frame.holds, BroadcastPc.holds, hholds] using hx
      rw [hrank]
      exact Nat.one_lt_two
  | stop pc =>
    cases pc with
    | test | store | shutdown => simp [Frame.requests, StopPc.requests] at hl
    | lock => simp [Frame.holds, StopPc.holds] at hx
    | sweep pc =>
      obtain ⟨hholds, hrank⟩ := SweepPc.Fits.rank_eq hf hl
      obtain rfl : x = (.sessions, .exclusive) := by
        simpa [Frame.holds, StopPc.holds, hholds] using hx
      rw [hrank]
      exact Nat.one_lt_two

/-- A call of `Stop` requests a mutex only after its test, and not that of a dead session. -/
theorem rank_pos_of_stop {pc : StopPc} (hf : (Frame.stop pc).Fits m)
    (hl : (Frame.stop pc).requests = some l) : pc.passed = true ∧ 0 < m.rank l.1 := by
  cases pc with
  | test | store | shutdown => simp [Frame.requests, StopPc.requests] at hl
  | lock =>
    cases hl
    exact ⟨rfl, Nat.one_pos⟩
  | sweep pc =>
    obtain ⟨-, hrank⟩ := SweepPc.Fits.rank_eq hf hl
    exact ⟨rfl, by omega⟩

/-- The innermost frame requests a mutex that ranks above all that its thread holds. -/
theorem Guarded.rank_lt (h : Guarded m (f :: fs)) (hf : f.Fits m) (hl : f.requests = some l)
    (hx : x ∈ heldBy (f :: fs)) : m.rank x.1 < m.rank l.1 := by
  rcases Multiset.mem_add.mp hx with hx' | hx'
  · exact hf.rank_lt hl hx'
  cases f with
  | stop pc =>
    obtain ⟨hpassed, hpos⟩ := rank_pos_of_stop hf hl
    have hdead := Memory.rank_eq_zero.mpr (h.1 hpassed x hx')
    omega
  | outside | accepter | worker | broadcast =>
    obtain rfl : fs = [] := h
    simp [heldBy] at hx'

theorem LoopPc.Fits.mono {pc : LoopPc} (hpc : pc.Fits m) (hevolves : m.Evolves m') :
    pc.Fits m' := by
  cases pc with
  | process | processing => exact Nat.lt_of_lt_of_le hpc hevolves.created
  | test | add | adding | next | get | getting | remove | removing => trivial

theorem SweepPc.Fits.congr {pc : SweepPc} (hpc : pc.Fits m) (htable : m'.objects = m.objects) :
    pc.Fits m' := by
  cases pc with
  | next | lock | locked => exact fun i hi ↦ htable ▸ hpc i hi

/-- A frame that does not hold `mutex_sessions_` does not depend on the table. -/
theorem Frame.Fits.mono (hf : f.Fits m) (hevolves : m.Evolves m')
    (htable : m'.objects = m.objects ∨ ∀ mode, (.sessions, mode) ∉ f.holds) : f.Fits m' := by
  cases f with
  | outside => trivial
  | accepter pc | worker pc => exact LoopPc.Fits.mono hf hevolves
  | broadcast pc =>
    cases pc with
    | test | lock | retest => trivial
    | sweep pc =>
      exact SweepPc.Fits.congr hf (htable.resolve_right fun h ↦ h _ (Multiset.mem_cons_self ..))
  | stop pc =>
    cases pc with
    | test | store | lock | shutdown => trivial
    | sweep pc =>
      exact SweepPc.Fits.congr hf (htable.resolve_right fun h ↦ h _ (Multiset.mem_cons_self ..))

theorem SweepPc.Fits.mem_objects {pc : SweepPc} (hpc : pc.Fits m) {i : Nat} {mode : Mode}
    (h : (.session i, mode) ∈ pc.holds) : i ∈ m.objects := by
  cases pc with
  | next | lock => simp [SweepPc.holds] at h
  | locked session remaining =>
    obtain ⟨rfl, -⟩ : i = session ∧ mode = .exclusive := by simpa [SweepPc.holds] using h
    exact hpc i List.mem_cons_self

theorem LoopPc.Fits.lt_created {pc : LoopPc} (hpc : pc.Fits m) {i : Nat} {mode : Mode}
    (h : (.session i, mode) ∈ pc.holds) : i < m.created := by
  cases pc with
  | processing session =>
    obtain ⟨rfl, -⟩ : i = session ∧ mode = .exclusive := by simpa [LoopPc.holds] using h
    exact hpc
  | test | add | adding | next | get | getting | remove | removing | process =>
    simp [LoopPc.holds] at h

/-- A frame holds the mutexes of sessions that have been constructed. -/
theorem Frame.Fits.lt_created (hf : f.Fits m) (hvalues : ∀ i ∈ m.objects, i < m.created) {i : Nat}
    {mode : Mode} (h : (.session i, mode) ∈ f.holds) : i < m.created := by
  cases f with
  | outside => simp [Frame.holds] at h
  | accepter pc | worker pc => exact LoopPc.Fits.lt_created hf h
  | broadcast pc =>
    cases pc with
    | test | lock | retest => simp [Frame.holds, BroadcastPc.holds] at h
    | sweep pc =>
      exact hvalues i (SweepPc.Fits.mem_objects hf (by
        simpa [Frame.holds, BroadcastPc.holds] using h))
  | stop pc =>
    cases pc with
    | test | store | lock | shutdown => simp [Frame.holds, StopPc.holds] at h
    | sweep pc =>
      exact hvalues i (SweepPc.Fits.mem_objects hf (by simpa [Frame.holds, StopPc.holds] using h))

theorem Guarded.evolves (h : Guarded m fs) (hfits : ∀ f ∈ fs.tail, f.Fits m)
    (hvalues : ∀ i ∈ m.objects, i < m.created) (hevolves : m.Evolves m') : Guarded m' fs := by
  induction fs with
  | nil => trivial
  | cons f fs ih =>
    cases f with
    | outside | accepter | worker | broadcast => exact h
    | stop pc =>
      refine ⟨fun hpassed l hl ↦ hevolves.dead (h.1 hpassed l hl) ?_,
        ih h.2 fun g hg ↦ hfits g (List.mem_of_mem_tail hg)⟩
      intro i hi
      obtain ⟨g, hg, hl⟩ := mem_held.mp hl
      have hmem : (.session i, l.2) ∈ g.holds := by rwa [← hi]
      exact (hfits g hg).lt_created hvalues hmem

/-- The innermost function makes a step. If it is `Stop`, it passes its test on a thread that holds
no mutex of a session in the table, and not `mutex_sessions_`. -/
theorem Guarded.step (h : Guarded m (f :: fs)) (hstep : f.step m c = some (f', m'))
    (hC : f = .stop .test → m.running = true → ∀ l ∈ heldBy fs, m.dead l.1 = true) :
    Guarded m (f'.toList ++ fs) := by
  cases f with
  | outside => cases hstep
  | accepter pc | worker pc =>
    obtain rfl : fs = [] := h
    obtain ⟨⟨pc', m'⟩, -, hstep⟩ := Option.map_eq_some_iff.mp hstep
    cases hstep
    cases pc' <;> trivial
  | broadcast pc =>
    obtain rfl : fs = [] := h
    obtain ⟨pc', -, hstep⟩ := Option.map_eq_some_iff.mp hstep
    cases hstep
    cases pc' <;> trivial
  | stop pc =>
    obtain ⟨⟨pc', m'⟩, hpc', hstep⟩ := Option.map_eq_some_iff.mp hstep
    cases hstep
    cases pc' with
    | none => exact h.2
    | some q =>
      refine ⟨fun hq ↦ ?_, h.2⟩
      by_cases hpassed : pc.passed = true
      · exact h.1 hpassed
      cases pc <;> simp only [StopPc.passed, not_true_eq_false] at hpassed
      · cases c <;> simp only [stopStep, reduceCtorEq] at hpc'
        cases hrunning : m.running with
        | true => exact hC rfl hrunning
        | false =>
          rw [hrunning] at hpc'
          cases hpc'
      · cases c <;> simp [stopStep] at hpc'

end Order

section Inv

variable {s t : State} {a : Action} {thread : Nat} {c : Choice}

theorem advance_cases (h : s.advance thread c = some t) : ∃ f fs f' m',
    s.threads[thread]? = some (f :: fs) ∧ s.grants f.requests = true ∧
      f.step s.memory c = some (f', m') ∧
      t = { memory := m', threads := s.threads.set thread (f'.toList ++ fs) } := by
  unfold State.advance at h
  split at h
  · rename_i f fs hthread
    split_ifs at h with hgrants
    obtain ⟨⟨f', m'⟩, hstep, rfl⟩ := Option.map_eq_some_iff.mp h
    exact ⟨f, fs, f', m', hthread, hgrants, hstep, rfl⟩
  · cases h

theorem signal_cases (h : s.signal thread = some t) : ∃ f fs,
    s.threads[thread]? = some (f :: fs) ∧
      t = { s with threads := s.threads.set thread (.stop .test :: f :: fs) } := by
  unfold State.signal at h
  split at h
  · rename_i f fs hthread
    cases h
    exact ⟨f, fs, hthread, rfl⟩
  · cases h

theorem held_append_toList (f' : Option Frame) (fs : List Frame) :
    heldBy (f'.toList ++ fs) = heldBy f'.toList + heldBy fs := by
  cases f' <;> simp [heldBy]

/-- What all threads hold, in terms of one of them. -/
theorem held_of_cons {thread : List Frame} {rest : Multiset (List Frame)}
    (h : (s.threads : Multiset (List Frame)) = thread ::ₘ rest) :
    s.held = heldBy thread + rest.bind heldBy := by
  rw [State.held, h, Multiset.cons_bind]

theorem mem_threads_init {n : Nat} {thread : List Frame} (h : thread ∈ (State.init n).threads) :
    thread = [.accepter .test] ∨ thread = [.worker .test] ∨ thread = [.broadcast .test] ∨
      thread = [.outside] := by
  simp only [State.init, List.cons_append, List.nil_append, List.mem_cons,
    List.mem_replicate] at h
  tauto

theorem inv_init (n : Nat) : (State.init n).Inv where
  values i hi := by simp [State.init, Memory.objects] at hi
  consistent := by
    have hheld : (State.init n).held = 0 := by
      refine Multiset.eq_zero_of_forall_notMem fun x hx ↦ ?_
      obtain ⟨thread, hthread, hx⟩ := Multiset.mem_bind.mp hx
      rcases mem_threads_init hthread with rfl | rfl | rfl | rfl <;>
        simp [heldBy, Frame.holds, LoopPc.holds, BroadcastPc.holds] at hx
    rw [hheld]
    exact consistent_zero
  fits thread hthread f hf := by
    rcases mem_threads_init hthread with rfl | rfl | rfl | rfl <;>
      cases List.mem_singleton.mp hf <;> trivial
  guarded thread hthread := by
    rcases mem_threads_init hthread with rfl | rfl | rfl | rfl <;> trivial

/-- Two invariants of a state in which one thread has another stack. -/
theorem mem_of_cons {P : List Frame → Prop} {thread : List Frame} {rest : Multiset (List Frame)}
    (h : (t.threads : Multiset (List Frame)) = thread ::ₘ rest) (hthread : P thread)
    (hrest : ∀ u ∈ rest, P u) : ∀ u ∈ t.threads, P u := by
  intro u hu
  rcases Multiset.mem_cons.mp (h ▸ Multiset.mem_coe.mpr hu) with rfl | hu
  · exact hthread
  · exact hrest u hu

theorem State.Inv.signal (hs : s.Inv) (h : s.signal thread = some t) : t.Inv := by
  obtain ⟨f, fs, hthread, rfl⟩ := signal_cases h
  obtain ⟨rest, hcons, hcons'⟩ := exists_cons_of_getElem? hthread (.stop .test :: f :: fs)
  have hmem : f :: fs ∈ s.threads := List.mem_of_getElem? hthread
  have hrest (u) (hu : u ∈ rest) : u ∈ s.threads :=
    Multiset.mem_coe.mp (hcons ▸ Multiset.mem_cons_of_mem hu)
  refine ⟨hs.values, ?_, mem_of_cons hcons' ?_ fun u hu ↦ hs.fits u (hrest u hu),
    mem_of_cons hcons' ?_ fun u hu ↦ hs.guarded u (hrest u hu)⟩
  · rw [held_of_cons hcons']
    have hconsistent := hs.consistent
    rw [held_of_cons hcons] at hconsistent
    simpa [heldBy, Frame.holds, StopPc.holds] using hconsistent
  · intro g hg
    rcases List.mem_cons.mp hg with rfl | hg
    · trivial
    · exact hs.fits _ hmem g hg
  · exact ⟨fun h ↦ by simp [StopPc.passed] at h, hs.guarded _ hmem⟩

/-- What the threads hold after a step. -/
theorem consistent_of_effect {f : Frame} {f' : Option Frame} {m m' : Memory}
    {others : Multiset (Mutex × Mode)} (h : FrameEffect m f f' m')
    (hconsistent : Consistent (f.holds + others))
    (hgrants : ∀ l, f.requests = some l → Grants (f.holds + others) l) :
    Consistent (heldBy f'.toList + others) := by
  rcases h.mutexes with ⟨l, g, hl, rfl, hg⟩ | ⟨-, hle⟩
  · have hheld : heldBy (some g).toList + others = l ::ₘ (f.holds + others) := by
      simp [heldBy, hg, Multiset.cons_add]
    rw [hheld]
    exact hconsistent.cons (hgrants l hl)
  · refine hconsistent.mono (add_le_add_left ?_ others)
    cases f' with
    | none => exact Multiset.zero_le _
    | some g => simpa [heldBy] using hle g rfl

theorem State.Inv.advance (hs : s.Inv) (hC : interruptsFree s (.advance thread c) = true)
    (h : s.advance thread c = some t) : t.Inv := by
  obtain ⟨f, fs, f', m', hthread, hgrants, hstep, rfl⟩ := advance_cases h
  obtain ⟨rest, hcons, hcons'⟩ := exists_cons_of_getElem? hthread (f'.toList ++ fs)
  have hmem : f :: fs ∈ s.threads := List.mem_of_getElem? hthread
  have hrest (u) (hu : u ∈ rest) : u ∈ s.threads :=
    Multiset.mem_coe.mp (hcons ▸ Multiset.mem_cons_of_mem hu)
  have heffect := effect_of_frameStep hs.values hstep
  set others := heldBy fs + rest.bind heldBy with hothers
  have hheld : s.held = f.holds + others := by
    rw [held_of_cons hcons, heldBy, hothers, add_assoc]
  -- whoever changes the table holds `mutex_sessions_` alone
  have htable (g : Frame) (hg : g.holds ≤ others) : m'.objects = s.memory.objects ∨
      ∀ mode, (.sessions, mode) ∉ g.holds := by
    refine heffect.table.imp_right fun hexclusive mode hmode ↦ ?_
    obtain ⟨r, hr⟩ := Multiset.exists_cons_of_mem hexclusive
    refine hs.consistent .sessions (r + others) ?_ mode ?_
    · rw [hheld, hr, Multiset.cons_add]
    · exact Multiset.mem_add.mpr (Or.inr (Multiset.mem_of_le hg hmode))
  have hfits (u) (hu : u ∈ s.threads) (hheld : heldBy u ≤ others) (g) (hg : g ∈ u) : g.Fits m' :=
    (hs.fits u hu g hg).mono heffect.evolves (htable g ((holds_le_held hg).trans hheld))
  refine ⟨fun i hi ↦ ?_, ?_, mem_of_cons hcons' ?_ fun u hu ↦ ?_,
    mem_of_cons hcons' ?_ fun u hu ↦ ?_⟩
  · rcases heffect.evolves.objects i hi with hi | ⟨-, hi⟩
    · exact (hs.values i hi).trans_le heffect.evolves.created
    · exact hi
  · rw [held_of_cons hcons', held_append_toList, add_assoc]
    refine consistent_of_effect heffect (hheld ▸ hs.consistent) fun l hl ↦ ?_
    rw [hl] at hgrants
    exact hheld ▸ of_decide_eq_true hgrants
  · intro g hg
    rcases List.mem_append.mp hg with hg | hg
    · exact heffect.fits (hs.fits _ hmem f List.mem_cons_self) g (Option.mem_toList.mp hg)
    · refine (hs.fits _ hmem g (List.mem_cons_of_mem _ hg)).mono heffect.evolves (htable g ?_)
      exact (holds_le_held hg).trans (Multiset.le_add_right ..)
  · refine hfits u (hrest u hu) (le_trans ?_ (Multiset.le_add_left ..))
    exact Multiset.le_bind rest hu
  · refine Guarded.evolves ((hs.guarded _ hmem).step hstep ?_) (fun g hg ↦ ?_) hs.values
      heffect.evolves
    · rintro rfl hrunning
      simpa [interruptsFree, hthread, hrunning] using hC
    · refine hs.fits _ hmem g (List.mem_cons_of_mem f ?_)
      cases f' with
      | none => exact List.mem_of_mem_tail hg
      | some _ => exact hg
  · exact (hs.guarded u (hrest u hu)).evolves
      (fun g hg ↦ hs.fits u (hrest u hu) g (List.mem_of_mem_tail hg)) hs.values heffect.evolves

theorem State.Inv.step (hs : s.Inv) (hC : interruptsFree s a = true)
    (h : Locking.step s a = some t) : t.Inv := by
  cases a with
  | signal thread => exact hs.signal h
  | advance thread c => exact hs.advance hC h

theorem inv_of_run {n : Nat} {as : List Action} (h : run Locking.step (.init n) as = some s)
    (hC : Along Locking.step (interruptsFree · · = true) (.init n) as) : s.Inv :=
  run_invariant_along (fun _ _ _ hs ha h ↦ hs.step ha h) hC h (inv_init n)

/-- Every thread requests a mutex that ranks above those it holds. -/
theorem State.Inv.deadlockFree (hs : s.Inv) : s.DeadlockFree := by
  have hrank (thread : Nat) (l l' : Mutex) (hrequests : s.requests thread l)
      (hholds : s.holds thread l') : s.memory.rank l' < s.memory.rank l := by
    obtain ⟨f, fs, mode, hthread, hl⟩ := hrequests
    obtain ⟨u, mode', hu, hl'⟩ := hholds
    obtain rfl := Option.some.inj (hthread.symm.trans hu)
    have hmem := List.mem_of_getElem? hthread
    exact (hs.guarded _ hmem).rank_lt (hs.fits _ hmem f List.mem_cons_self) hl hl'
  exact ⟨fun _ _ ↦ not_holds_of_rank hrank, acyclic_of_rank hrank⟩

end Inv

/-- If the handler's `Stop` passes its test only on threads that hold neither `mutex_sessions_` nor
the mutex of a session in the table, there is no deadlock. On other threads it can come to wait for
itself, by `exists_selfDeadlock`. -/
theorem deadlockFree_of_run {n : Nat} {s : State} {as : List Action}
    (h : run step (.init n) as = some s)
    (hC : Along step (interruptsFree · · = true) (.init n) as) : s.DeadlockFree :=
  (inv_of_run h hC).deadlockFree

/-- The main thread handles a signal while the broadcast thread sleeps, and waits for it. -/
def outsideRun : List Action :=
  List.replicate 3 (.advance 2 .go) ++ [.signal 3, .advance 3 .go, .advance 3 .go] ++
    List.replicate 2 (.advance 2 .go) ++ List.replicate 3 (.advance 3 .go)

theorem deadlockFree_of_run_outside :
    ∃ s, run step (.init 1) outsideRun = some s ∧ s.DeadlockFree :=
  ⟨_, rfl, deadlockFree_of_run (show run step (.init 1) outsideRun = some _ from rfl) (by decide)⟩

/-- The broadcast thread handles a signal while it sleeps. -/
def sleepingRun : List Action :=
  List.replicate 3 (.advance 2 .go) ++ [.signal 2, .advance 2 .go, .advance 2 .go]

/-- `Stop` waits for the thread that it interrupts. -/
theorem not_deadlockFree_of_run : ¬∀ (n : Nat) (s : State) (as : List Action),
    run step (.init n) as = some s → s.DeadlockFree := by
  intro hfree
  obtain ⟨s, hrun, hthread⟩ : ∃ s, run step (.init 0) sleepingRun = some s ∧
      s.threads[2]? = some [.stop .lock, .broadcast (.sweep (.next []))] := ⟨_, rfl, rfl⟩
  refine (hfree 0 s sleepingRun hrun).self 2 .sessions ⟨_, _, .exclusive, hthread, rfl⟩ ?_
  exact ⟨_, .shared, hthread, by simp [heldBy, Frame.holds, BroadcastPc.holds]⟩

/-! ### Calls that do not meet the condition -/

section Exact

variable {s t : State} {a : Action} {thread : Nat} {fs : List Frame} {pc pc' : StopPc}
  {m m' : Memory} {threads : List (List Frame)} {c : Choice}

/-- A call of `Stop` makes a step on its thread. -/
theorem step_of_stopStep (hthread : thread < threads.length)
    (hgrants : State.grants ⟨m, threads.set thread (.stop pc :: fs)⟩ pc.requests = true)
    (h : stopStep m pc c = some (some pc', m')) :
    step ⟨m, threads.set thread (.stop pc :: fs)⟩ (.advance thread c) =
      some ⟨m', threads.set thread (.stop pc' :: fs)⟩ := by
  simp [step, State.advance, hthread, Frame.requests, hgrants, Frame.step, h]

/-- A thread whose `Stop` waits for it. -/
theorem not_deadlockFree_of_held (hthread : thread < threads.length) {l x : Mutex × Mode}
    (hl : pc.requests = some l) (hx : x ∈ heldBy fs) (heq : x.1 = l.1) :
    ¬State.DeadlockFree ⟨m, threads.set thread (.stop pc :: fs)⟩ := by
  intro hfree
  have hget : (threads.set thread (.stop pc :: fs))[thread]? = some (.stop pc :: fs) :=
    List.getElem?_set_self hthread
  refine hfree.self thread l.1 ⟨_, _, l.2, hget, hl⟩ ⟨_, x.2, hget, ?_⟩
  rw [← heq]
  exact Multiset.mem_add.mpr (Or.inr hx)

/-- A call of `Stop` holds nothing before it has locked `mutex_sessions_`. -/
theorem held_set_stop (hthread : s.threads[thread]? = some (.stop .test :: fs)) :
    State.held ⟨m, s.threads.set thread (.stop .lock :: fs)⟩ = s.held := by
  obtain ⟨rest, hcons, hcons'⟩ := exists_cons_of_getElem? hthread (.stop .lock :: fs)
  rw [held_of_cons hcons, held_of_cons (s := ⟨m, _⟩) hcons']
  rfl

/-- If `Stop` passes its test on a thread that holds `mutex_sessions_`, or that holds the mutex of a
session in the table while `mutex_sessions_` is free, it comes to wait for its own thread. -/
theorem exists_selfDeadlock (h : step s (.advance thread c) = some t)
    (hthread : s.threads[thread]? = some (.stop .test :: fs))
    (hC : interruptsFree s (.advance thread c) = false)
    (hfree : (∃ mode, (.sessions, mode) ∈ heldBy fs) ∨
      s.grants (some (.sessions, .exclusive)) = true) :
    ∃ as u, run step t as = some u ∧ ¬u.DeadlockFree := by
  obtain ⟨hrunning, x, hx, hlive⟩ :
      s.memory.running = true ∧ ∃ x ∈ heldBy fs, s.memory.dead x.1 = false := by
    simpa [interruptsFree, hthread] using hC
  have hlt : thread < s.threads.length := (List.getElem?_eq_some_iff.mp hthread).1
  obtain rfl : t = ⟨s.memory, s.threads.set thread (.stop .store :: fs)⟩ := by
    obtain ⟨f, gs, f', m', hthread', -, hstep, rfl⟩ := advance_cases h
    obtain ⟨rfl, rfl⟩ := List.cons.inj (Option.some.inj (hthread.symm.trans hthread'))
    cases c <;> simp [Frame.step, stopStep, hrunning] at hstep
    obtain ⟨rfl, rfl⟩ := hstep
    rfl
  set m : Memory := { s.memory with running := false }
  have hstore : step ⟨s.memory, s.threads.set thread (.stop .store :: fs)⟩ (.advance thread .go) =
      some ⟨m, s.threads.set thread (.stop .lock :: fs)⟩ := step_of_stopStep hlt rfl rfl
  have hself (y : Mutex × Mode) (hy : y ∈ heldBy fs) (heq : y.1 = .sessions) :
      ∃ as u, run step ⟨s.memory, s.threads.set thread (.stop .store :: fs)⟩ as = some u ∧
        ¬u.DeadlockFree :=
    ⟨[.advance thread .go], _, (run_cons step).mpr ⟨_, hstore, rfl⟩,
      not_deadlockFree_of_held hlt rfl hy heq⟩
  rcases hfree with ⟨mode, hmode⟩ | hgrants
  · exact hself _ hmode rfl
  obtain ⟨l, mode⟩ := x
  cases l with
  | sessions => exact hself _ hx rfl
  | session i =>
    have hi : i ∈ s.memory.objects := by simpa [Memory.dead] using hlive
    have hlock : step ⟨m, s.threads.set thread (.stop .lock :: fs)⟩ (.advance thread .go) =
        some ⟨m, s.threads.set thread (.stop (.sweep (.next m.objects)) :: fs)⟩ := by
      refine step_of_stopStep hlt ?_ rfl
      rw [StopPc.requests, State.grants, held_set_stop hthread]
      exact hgrants
    have hvisit : step ⟨m, s.threads.set thread (.stop (.sweep (.next m.objects)) :: fs)⟩
        (.advance thread (.session i)) =
        some ⟨m, s.threads.set thread (.stop (.sweep (.lock i (m.objects.erase i))) :: fs)⟩ :=
      step_of_stopStep hlt rfl (by simp [stopStep, sweepStep, show i ∈ m.objects from hi])
    refine ⟨[.advance thread .go, .advance thread .go, .advance thread (.session i)], _,
      (run_cons step).mpr ⟨_, hstore, (run_cons step).mpr ⟨_, hlock, (run_cons step).mpr
        ⟨_, hvisit, rfl⟩⟩⟩, not_deadlockFree_of_held hlt rfl hx rfl⟩

end Exact

end CppDemo.Grpc.ServerAsync.Locking
