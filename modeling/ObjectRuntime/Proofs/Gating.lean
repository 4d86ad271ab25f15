import ObjectRuntime.Proofs.CoreErrors
import ObjectRuntime.Proofs.Routines

/-! Capabilities over whole runs. Each operation may demand a capability, which depends on what it is asked
to do and on what it finds outside. A run goes on as long as every demand is met; at the first one that is
not it ends there, in the state in which that operation began, and it ends that way for no other reason. -/

namespace ObjectRuntime

/-! ### Demands -/

/-- The raise that a call of the host comes to. -/
def hostRaise? {α : Type} : Except Errno α → Option Raise
  | .ok _ => none
  | .error e => some (.io e.code)

namespace Operation

variable {ω : Type} (host : Host ω)

/-- The raise that an operation comes to of itself, if it is a raise primitive or works on the host. -/
def reaches : {α : Type} → Operation ω α → Option Raise
  | _, raise r => some r
  | _, openFile w path mode =>
    if path.contains 0 then some (.io Errno.invalid.code) else hostRaise? (host.openFile path mode w).1
  | _, close w fd => hostRaise? (host.close fd w).1
  | _, read w fd n =>
    if host.reserves n then hostRaise? (host.read fd n w).1 else some .memory
  | _, readStream w fd n =>
    if host.reserves n then
      match (host.readFully fd n w).1 with
      | .ok bytes => if bytes.isEmpty ∧ 0 < n then some .endOfInput else none
      | .error e => some (.io e.code)
    else some .memory
  | _, write w fd data => hostRaise? (host.write fd data w).1
  | _, _ => none

/-- The capability without which the operation must not go on. -/
def demand {α : Type} : Operation ω α → Option Capability
  | populateMapping _ _ => some .mapping
  | o => (o.reaches host).bind fun r => r.kind.capability?

end Operation

/-- The event demands the capability, and the build lacks it. -/
def Machine.Lacks {ω : Type} (m : Machine) (host : Host ω) (e : Event ω) (c : Capability) : Prop :=
  e.operation.demand host = some c ∧ m.capabilities.has c = false

/-! ### The host -/

section Outside

variable {ω α β : Type} {m : Machine} {host : Host ω} {f : ω → Except Errno α × ω} {g : α → ActionOn ω β}
  {w : ω} {s : State} {r : Raise}

theorem outside_hostCall : outside w (m.hostCall f >>= g) s =
    match (f w).1 with
    | .ok a => outside (f w).2 (g a) s
    | .error e => .error (m.capabilities.raising (.io e.code)) s := by
  unfold Machine.hostCall outside
  rw [bind_assoc, ActionOn.modifyGet_bind]
  rcases f w with ⟨x, w'⟩
  cases x <;> rfl

theorem outside_hostCall_of_raise (h : hostRaise? (f w).1 = some r) :
    outside w (m.hostCall f >>= g) s = .error (m.capabilities.raising r) s := by
  rw [outside_hostCall]
  cases hf : (f w).1 with
  | ok a => simp [hostRaise?, hf] at h
  | error e =>
    simp only [hostRaise?, hf, Option.some.injEq] at h
    rw [← h]

theorem outside_hostCall_ne_error {k : α → β} (h : hostRaise? (f w).1 = none) (e : Halt) (s' : State) :
    outside w (m.hostCall f >>= fun a => pure (k a)) s ≠ .error e s' := by
  rw [outside_hostCall]
  cases hf : (f w).1 with
  | ok a => nofun
  | error e' => simp [hostRaise?, hf] at h

theorem outside_openFile {path : List UInt8} {mode : OpenMode} (h : ¬ path.contains 0) :
    outside w (m.openFile host path mode) s = outside w (m.hostCall (host.openFile path mode) >>= pure) s := by
  rw [Machine.openFile, if_neg h, bind_pure]

/-- What is done with the bytes of a full read. -/
theorem outside_readStream {fd : Int} {n : Nat} (h : host.reserves n) :
    outside w (m.readStream host fd n) s = outside w (m.hostCall (host.readFully fd n) >>= fun bytes =>
      if bytes.isEmpty ∧ 0 < n then m.raise .endOfInput else pure (.str bytes.toArray)) s := by
  rw [Machine.readStream, if_pos h]

end Outside

namespace Operation

variable {ω α : Type} {m : Machine} {host : Host ω} {o : Operation ω α} {r : Raise}

theorem openFile_of_reaches {w : ω} {path : List UInt8} {mode : OpenMode}
    (h : (openFile w path mode).reaches host = some r) (s : State) :
    outside w (m.openFile host path mode) s = .error (m.capabilities.raising r) s := by
  simp only [reaches] at h
  by_cases hzero : path.contains 0
  · rw [if_pos hzero, Option.some.injEq] at h
    rw [Machine.openFile, if_pos hzero, ← h]
    rfl
  · rw [if_neg hzero] at h
    rw [outside_openFile hzero]
    exact outside_hostCall_of_raise h

theorem read_of_reaches {w : ω} {fd : Int} {n : Nat} (h : (read w fd n).reaches host = some r) (s : State) :
    outside w (m.read host fd n) s = .error (m.capabilities.raising r) s := by
  simp only [reaches] at h
  by_cases hroom : host.reserves n
  · rw [if_pos hroom] at h
    rw [Machine.read, if_pos hroom]
    exact outside_hostCall_of_raise h
  · rw [if_neg hroom, Option.some.injEq] at h
    rw [Machine.read, if_neg hroom, ← h]
    rfl

theorem readStream_of_reaches {w : ω} {fd : Int} {n : Nat} (h : (readStream w fd n).reaches host = some r)
    (s : State) : outside w (m.readStream host fd n) s = .error (m.capabilities.raising r) s := by
  simp only [reaches] at h
  by_cases hroom : host.reserves n
  · rw [if_pos hroom] at h
    rw [outside_readStream hroom, outside_hostCall]
    cases hread : (host.readFully fd n w).1 with
    | error e =>
      simp only [hread, Option.some.injEq] at h
      rw [← h]
    | ok bytes =>
      simp only [hread] at h
      split at h
      · rename_i hend
        cases h
        simp only [if_pos hend]
        rfl
      · cases h
  · rw [if_neg hroom, Option.some.injEq] at h
    rw [Machine.readStream, if_neg hroom, ← h]
    rfl

/-- An operation that comes to a raise ends in it, or ends the program, and leaves the state alone. -/
theorem run_of_reaches (h : o.reaches host = some r) (natives : Natives) (s : State) :
    o.run m host natives s = .error (m.capabilities.raising r) s := by
  cases o
  case raise r' =>
    obtain rfl : r' = r := Option.some.inj h
    rfl
  case openFile w path mode => exact openFile_of_reaches h s
  case close w fd => exact outside_hostCall_of_raise h
  case write w fd data => exact outside_hostCall_of_raise h
  case read w fd n => exact read_of_reaches h s
  case readStream w fd n => exact readStream_of_reaches h s
  all_goals cases h

/-! ### Operations that come to no raise and no call -/

variable {natives : Natives} {s s' : State} {e : Halt}

theorem isCore_of_callOf {callable : Attr} {proven : Bool} {keywords : List Keyword}
    {args : Array Attr} (hcall : callOf m callable proven keywords args s = none)
    (h : m.invoke natives callable proven keywords args s = .error e s') : e.IsCore := by
  unfold callOf at hcall
  rw [Machine.invoke_eq] at h
  cases hprepare : m.layout.prepare s.heap callable proven keywords args with
  | ok c => simp [hprepare] at hcall
  | error e' =>
    rw [hprepare] at h
    cases h
    exact Layout.prepare_isCore hprepare

theorem isCore_of_populateMapping {this : Attr} {items : Array Attr}
    (hmapping : m.capabilities.has .mapping)
    (hcall : (populateMapping this items : Operation ω Attr).callee m s = none)
    (h : m.populateMapping natives this items s = .error e s') : e.IsCore := by
  simp only [callee, hmapping, if_true] at hcall
  simp only [Machine.populateMapping, hmapping, if_true] at h
  cases hinit : m.builtins.mappingInit with
  | none =>
    simp only [hinit] at h
    exact core_typeError _ _ _ _ h
  | some init =>
    simp only [hinit] at h hcall
    rcases ActionOn.bind_eq_error_iff.1 h with h | ⟨list, made, hlist, -⟩
    · exact Machine.core_newList _ _ _ h
    · simp [hlist] at hcall

theorem isCore_of_ensureInstance {a : Attr}
    (hcall : (ensureInstance a : Operation ω Attr).callee m s = none)
    (h : m.ensureInstance natives a s = .error e s') : e.IsCore := by
  simp only [callee] at hcall
  rw [ensureInstance_apply] at h
  split at hcall
  · rename_i hinstance
    rw [if_pos hinstance] at h
    cases h
  · rename_i hinstance
    rw [if_neg hinstance] at h
    exact isCore_of_callOf hcall h

theorem isCore_of_truth {a : Attr} (hcall : (truth a : Operation ω Bool).callee m s = none)
    (h : m.truth natives a s = .error e s') : e.IsCore := by
  simp only [callee] at hcall
  split at hcall
  · rename_i hself
    unfold Machine.truth at h
    rcases Bool.or_eq_true_iff.1 hself with htrue | hfalse
    · rw [if_pos htrue] at h
      cases h
    · rw [if_pos hfalse] at h
      split at h <;> cases h
  · cases hcall

theorem openFile_ne_error {w : ω} {path : List UInt8} {mode : OpenMode}
    (h : (openFile w path mode).reaches host = none) (e : Halt) (s' : State) :
    outside w (m.openFile host path mode) s ≠ .error e s' := by
  simp only [reaches] at h
  split at h
  · cases h
  · rename_i hzero
    rw [outside_openFile hzero]
    exact outside_hostCall_ne_error h e s'

theorem read_ne_error {w : ω} {fd : Int} {n : Nat} (h : (read w fd n).reaches host = none) (e : Halt)
    (s' : State) : outside w (m.read host fd n) s ≠ .error e s' := by
  simp only [reaches] at h
  split at h
  · rename_i hroom
    rw [Machine.read, if_pos hroom]
    exact outside_hostCall_ne_error h e s'
  · cases h

theorem readStream_ne_error {w : ω} {fd : Int} {n : Nat} (h : (readStream w fd n).reaches host = none)
    (e : Halt) (s' : State) : outside w (m.readStream host fd n) s ≠ .error e s' := by
  simp only [reaches] at h
  split at h
  · rename_i hroom
    rw [outside_readStream hroom, outside_hostCall]
    cases hread : (host.readFully fd n w).1 with
    | error e' => simp [hread] at h
    | ok bytes =>
      simp only [hread] at h ⊢
      split at h
      · cases h
      · rename_i hbytes
        rw [if_neg hbytes]
        nofun
  · cases h

/-- An operation that neither lacks a capability nor comes to a raise or a call ends early only in errors
of every build. -/
theorem isCore_of_leaf (hmet : ∀ c, ¬ m.Lacks host ⟨o, s⟩ c) (hreaches : o.reaches host = none)
    (hcall : o.callee m s = none) (h : o.run m host natives s = .error e s') : e.IsCore := by
  cases o
  case inspect f => cases h
  case panic => exact core_throw (e := .fault) trivial _ _ _ h
  case raise r => cases hreaches
  case load o pos => exact core_load _ _ _ h
  case loadChecked o slot => exact core_loadChecked _ _ _ h
  case store o pos a => exact core_store _ _ _ h
  case storeChecked o slot a => exact core_storeChecked _ _ _ h
  case push f a => exact core_push _ _ _ _ h
  case setDefault target index a => exact Machine.core_setDefault _ _ _ _ h
  case getDefault target index => exact Machine.core_getDefault _ _ _ _ h
  case predefine table pos slots => exact core_predefine _ _ _ _ _ _ h
  case newObject table classRef size policy => exact Machine.core_newObject _ _ _ _ _ _ _ h
  case newInstance c policy => exact Machine.core_newInstance _ _ _ _ _ h
  case newFragment n => exact Machine.core_newFragment _ _ _ _ h
  case populateSequence this items => exact Machine.core_populateSequence _ _ _ h
  case newLiteral c items => exact Machine.core_newLiteral _ _ _ _ h
  case newList items => exact Machine.core_newList _ _ _ h
  case newTuple items => exact Machine.core_newTuple _ _ _ h
  case listToTuple list => exact Machine.core_listToTuple _ _ _ h
  case newWrapper context target => exact Machine.core_newWrapper _ _ _ _ _ h
  case populateMapping this items =>
    have hmapping : m.capabilities.has .mapping := by
      have hlacks := hmet .mapping
      simpa [Machine.Lacks, demand] using hlacks
    exact isCore_of_populateMapping hmapping hcall h
  case invoke callable proven keywords args => exact isCore_of_callOf hcall h
  case ensureInstance a => exact isCore_of_ensureInstance hcall h
  case truth a => exact isCore_of_truth hcall h
  case openFile w path mode => exact absurd h (openFile_ne_error hreaches e s')
  case close w fd => exact absurd h (outside_hostCall_ne_error hreaches e s')
  case write w fd data => exact absurd h (outside_hostCall_ne_error hreaches e s')
  case read w fd n => exact absurd h (read_ne_error hreaches e s')
  case readStream w fd n => exact absurd h (readStream_ne_error hreaches e s')

/-! ### Demands that are met or not -/

theorem not_lacks_of_callee {c : Call × State} (h : o.callee m s = some c) (k : Capability) :
    ¬ m.Lacks host ⟨o, s⟩ k := by
  rintro ⟨hdemand, hlacks⟩
  cases o
  case populateMapping this items =>
    cases hdemand
    simp [callee, hlacks] at h
  case invoke => cases hdemand
  case ensureInstance => cases hdemand
  case truth => cases hdemand
  all_goals cases h

theorem demand_of_reaches (h : o.reaches host = some r) : o.demand host = r.kind.capability? := by
  cases o
  case populateMapping => cases h
  all_goals simp [demand, h]

/-- An operation whose demand is not met ends the program and leaves the state alone. -/
theorem run_of_lacks {c : Capability} (h : m.Lacks host ⟨o, s⟩ c) (natives : Natives) :
    o.run m host natives s = .error (.aborted c) s := by
  obtain ⟨hdemand, hlacks⟩ := h
  cases o
  case populateMapping this items =>
    cases hdemand
    simp only [run, Machine.populateMapping, hlacks, Bool.false_eq_true, if_false]
    rfl
  all_goals
    simp only [demand, Option.bind_eq_some_iff] at hdemand
    obtain ⟨r, hreaches, hkind⟩ := hdemand
    rw [run_of_reaches hreaches, CapabilitySet.raising, hkind]
    simp [hlacks]

end Operation

/-! ### Runs -/

section Runs

variable {ω α β : Type} {m : Machine} {host : Host ω} {tr before : List (Event ω)}

/-- Where every demand was met, a run is not aborted, and a raise that needs a capability comes from an
operation that demanded it. -/
def Accounted (host : Host ω) (tr : List (Event ω)) : Halt → Prop
  | .raised r => ∀ c, r.kind.capability? = some c → ∃ e ∈ tr, e.operation.demand host = some c
  | .aborted _ => False
  | _ => True

/-- A run meets every demand, or meets all but the one of its last operation and is aborted in the state
in which that operation began. -/
inductive Gated (m : Machine) (host : Host ω) :
    List (Event ω) → EStateM.Result Halt State α → Prop where
  | passes {tr : List (Event ω)} {x : EStateM.Result Halt State α}
      (met : ∀ e ∈ tr, ∀ c, ¬ m.Lacks host e c)
      (accounted : ∀ e s, x = .error e s → Accounted host tr e) : Gated m host tr x
  | stops {before : List (Event ω)} {last : Event ω} {c : Capability}
      (met : ∀ e ∈ before, ∀ c, ¬ m.Lacks host e c) (lacks : m.Lacks host last c) :
      Gated m host (before ++ [last]) (.error (.aborted c) last.state)

theorem Halt.IsCore.accounted {e : Halt} (h : e.IsCore) : Accounted host tr e := by
  cases e with
  | raised r =>
    intro c hc
    rw [show r.kind.capability? = none from h] at hc
    cases hc
  | fault => trivial
  | aborted c => exact h
  | exhausted => trivial

theorem Accounted.append {e : Halt} (h : Accounted host tr e) : Accounted host (before ++ tr) e := by
  cases e with
  | raised r =>
    intro c hc
    obtain ⟨ev, hev, hdemand⟩ := h c hc
    exact ⟨ev, List.mem_append_right _ hev, hdemand⟩
  | fault => trivial
  | aborted c => exact h
  | exhausted => trivial

namespace Gated

variable {x : EStateM.Result Halt State α}

theorem of_isCore (h : ∀ e s, x = .error e s → e.IsCore) : Gated m host [] x :=
  passes (List.forall_mem_nil _) fun e s heq => (h e s heq).accounted

theorem append (hmet : ∀ e ∈ before, ∀ c, ¬ m.Lacks host e c) (h : Gated m host tr x) :
    Gated m host (before ++ tr) x := by
  cases h with
  | passes met accounted =>
    refine passes (fun e he => ?_) fun e s heq => (accounted e s heq).append
    rcases List.mem_append.1 he with he | he
    · exact hmet e he
    · exact met e he
  | stops met lacks =>
    rw [← List.append_assoc]
    refine stops (fun e he => ?_) lacks
    rcases List.mem_append.1 he with he | he
    · exact hmet e he
    · exact met e he

/-- Only errors count, and of those an abort must not be lost. -/
theorem of_errors {y : EStateM.Result Halt State β} (h : Gated m host tr x)
    (herror : ∀ e s, y = .error e s → x = .error e s)
    (habort : ∀ c s, x = .error (.aborted c) s → y = .error (.aborted c) s) : Gated m host tr y := by
  cases h with
  | passes met accounted => exact passes met fun e s heq => accounted e s (herror e s heq)
  | stops met lacks =>
    rw [habort _ _ rfl]
    exact stops met lacks

theorem map {x : Action α} {s : State} (f : α → β) (h : Gated m host tr (x s)) :
    Gated m host tr ((f <$> x) s) := by
  change Gated m host tr (EStateM.map f x s)
  unfold EStateM.map
  apply h.of_errors
  · intro e s' heq
    cases hx : x s <;> simp_all
  · intro c s' heq
    rw [heq]

theorem attempted {x : Action α} {s : State} (h : Gated m host tr (x s)) :
    Gated m host tr (ObjectRuntime.attempted x s) := by
  unfold ObjectRuntime.attempted
  apply h.of_errors
  · intro e s' heq
    split at heq <;> simp_all
  · intro c s' heq
    rw [heq]

/-- One run after another is a run. -/
theorem bind {x : Action α} {f : α → Action β} {s : State} {rest : α → State → List (Event ω)}
    (h : Gated m host tr (x s)) (hrest : ∀ a s, Gated m host (rest a s) (f a s)) :
    Gated m host (tr ++ followed (x s) rest) ((x >>= f) s) := by
  change Gated m host _ (EStateM.bind x f s)
  unfold EStateM.bind
  cases hx : x s with
  | ok a s' =>
    rw [hx] at h
    cases h with
    | passes met accounted => exact (hrest a s').append met
  | error e s' =>
    rw [hx] at h
    simp only [followed, List.append_nil]
    exact h.of_errors (fun _ _ heq => by simpa using heq) (fun _ _ heq => by simpa using heq)

end Gated

variable {natives : Natives} {inside : Call → State → List (Event ω)}

/-- A raise whose demand is met is raised as it is. -/
theorem accounted_of_reaches {o : Operation ω α} {s : State} {r : Raise} (h : o.reaches host = some r)
    (hmet : ∀ c, ¬ m.Lacks host ⟨o, s⟩ c) : Accounted host [⟨o, s⟩] (m.capabilities.raising r) := by
  have hdemand := Operation.demand_of_reaches h
  unfold CapabilitySet.raising
  split
  · rename_i c hkind
    split
    · intro c' hc'
      exact ⟨⟨o, s⟩, List.mem_singleton.2 rfl, hdemand.trans hc'⟩
    · rename_i hlacks
      exact absurd ⟨hdemand.trans hkind, Bool.not_eq_true _ ▸ hlacks⟩ (hmet c)
  · rename_i hkind
    intro c hc
    rw [hkind] at hc
    cases hc

/-- An operation is a run of its own together with the native that it calls. -/
theorem gated_operation (hinside : ∀ c s, Gated m host (inside c s) (natives.run c s))
    (o : Operation ω α) (s : State) : Gated m host (o.trace m inside s) (o.run m host natives s) := by
  cases hcall : o.callee m s with
  | some call =>
    obtain ⟨f, hrun⟩ := Operation.run_of_callee host hcall
    have htrace : o.trace m inside s = [⟨o, s⟩] ++ inside call.1 call.2 := by
      simp [Operation.trace, hcall]
    rw [htrace, hrun natives]
    refine ((hinside call.1 call.2).map f).append fun e he => ?_
    obtain rfl := List.mem_singleton.1 he
    exact Operation.not_lacks_of_callee hcall
  | none =>
    have htrace : o.trace m inside s = [⟨o, s⟩] := by simp [Operation.trace, hcall]
    rw [htrace]
    by_cases hlacks : ∃ c, m.Lacks host ⟨o, s⟩ c
    · obtain ⟨c, hlacks⟩ := hlacks
      rw [Operation.run_of_lacks hlacks]
      exact @Gated.stops ω α m host [] ⟨o, s⟩ c (List.forall_mem_nil _) hlacks
    · have hmet : ∀ c, ¬ m.Lacks host ⟨o, s⟩ c := not_exists.1 hlacks
      refine Gated.passes (fun e he => ?_) fun e s' herror => ?_
      · obtain rfl := List.mem_singleton.1 he
        exact hmet
      · cases hreaches : o.reaches host with
        | none => exact (Operation.isCore_of_leaf hmet hreaches hcall herror).accounted
        | some r =>
          rw [Operation.run_of_reaches hreaches] at herror
          cases herror
          exact accounted_of_reaches hreaches hmet

theorem gated_routine (hinside : ∀ c s, Gated m host (inside c s) (natives.run c s))
    (r : Routine ω β) (s : State) :
    Gated m host (r.trace m host natives inside s) (r.run m host natives s) := by
  induction r generalizing s with
  | done b => exact Gated.of_isCore nofun
  | step o next ih => exact (gated_operation hinside o s).bind ih
  | attempt o next ih => exact (gated_operation hinside o s).attempted.bind ih

/-- The natives of a program are runs, however deeply they nest. -/
theorem gated_inside (rs : Routines ω) (fuel : Nat) (c : Call) (s : State) :
    Gated m host (rs.inside m host fuel c s) ((rs.natives m host fuel).run c s) := by
  obtain ⟨native, args⟩ := c
  induction fuel generalizing native args s with
  | zero =>
    apply Gated.of_isCore
    intro e s' h
    cases native with
    | unboundMethod => exact core_typeError _ _ _ _ h
    | named name =>
      cases h
      trivial
  | succ fuel ih =>
    cases native with
    | unboundMethod => exact Gated.of_isCore fun e s' h => core_typeError _ _ _ _ h
    | named name =>
      exact gated_routine (fun c s => ih s c.native c.args) (rs name args)
        { s with calls := s.calls.push ⟨.named name, args⟩ }

end Runs

/-! ### What capabilities do to a run -/

section Gates

variable {ω α : Type}

/-- What is known of a run with this trace and this result. -/
structure Machine.Gates (m : Machine) (host : Host ω) (tr : List (Event ω))
    (x : EStateM.Result Halt State α) : Prop where
  /-- A raise that needs a capability has it, and an operation of the run demanded it. -/
  raised (r : Raise) (s : State) (c : Capability) (h : x = .error (.raised r) s)
    (hc : r.kind.capability? = some c) :
    m.capabilities.has c ∧ ∃ e ∈ tr, e.operation.demand host = some c
  aborted_iff (c : Capability) : (∃ s, x = .error (.aborted c) s) ↔ ∃ e ∈ tr, m.Lacks host e c
  /-- Nothing happens once a demand is not met. -/
  last (before : List (Event ω)) (e : Event ω) (after : List (Event ω)) (c : Capability)
    (htr : tr = before ++ e :: after) (h : m.Lacks host e c) :
    after = [] ∧ x = .error (.aborted c) e.state

variable {m : Machine} {host : Host ω} {tr before after : List (Event ω)} {e last : Event ω}
  {x : EStateM.Result Halt State α}

theorem Machine.Lacks.unique {c c' : Capability} (h : m.Lacks host e c) (h' : m.Lacks host e c') : c = c' :=
  Option.some.inj (h.1.symm.trans h'.1)

/-- An element that cannot be among all but the last is the last. -/
theorem eq_last_of_not_mem {γ : Type*} {xs ys zs : List γ} {y z : γ} (h : xs ++ [z] = ys ++ y :: zs)
    (hy : y ∉ xs) : zs = [] ∧ y = z := by
  rcases List.append_eq_append_iff.1 h with ⟨as, -, hz⟩ | ⟨bs, rfl, hz⟩
  · cases as with
    | nil => simpa [eq_comm, and_comm] using hz
    | cons a as => simp at hz
  · cases bs with
    | nil => simpa [eq_comm, and_comm] using hz
    | cons b bs =>
      obtain rfl : y = b := (List.cons.inj hz).1
      exact absurd (List.mem_append_right _ List.mem_cons_self) hy

theorem Gated.gates (h : Gated m host tr x) : m.Gates host tr x := by
  cases h with
  | passes met accounted =>
    refine ⟨fun r s c hx hc => ?_, fun c => ⟨?_, ?_⟩, fun before e after c htr h => ?_⟩
    · obtain ⟨e, he, hdemand⟩ := accounted _ _ hx c hc
      refine ⟨?_, e, he, hdemand⟩
      by_contra hlacks
      exact met e he c ⟨hdemand, Bool.not_eq_true _ ▸ hlacks⟩
    · rintro ⟨s, hx⟩
      exact (accounted _ _ hx).elim
    · rintro ⟨e, he, h⟩
      exact absurd h (met e he c)
    · exact absurd h (met e (htr ▸ List.mem_append_right _ List.mem_cons_self) c)
  | @stops before last c met lacks =>
    have hlast : last ∈ before ++ [last] := List.mem_append_right _ (List.mem_singleton.2 rfl)
    refine ⟨fun r s c' hx hc => ?_, fun c' => ⟨?_, ?_⟩, fun before' e after c' htr h => ?_⟩
    · cases hx
    · rintro ⟨s, hx⟩
      cases hx
      exact ⟨last, hlast, lacks⟩
    · rintro ⟨e, he, h⟩
      rcases List.mem_append.1 he with he | he
      · exact absurd h (met e he c')
      · obtain rfl := List.mem_singleton.1 he
        obtain rfl := lacks.unique h
        exact ⟨_, rfl⟩
    · obtain ⟨rfl, rfl⟩ := eq_last_of_not_mem htr fun he => met e he c' h
      obtain rfl := lacks.unique h
      exact ⟨rfl, rfl⟩

end Gates

namespace Routines

variable {ω : Type} (m : Machine) (host : Host ω) (rs : Routines ω) (fuel : Nat)

/-- No run gets past a capability that the build lacks, be it a single operation or a whole program, and
however deeply natives call one another: a raise of an optional kind comes out only where its capability is
there; a run is aborted iff it reaches an operation whose demand is not met, which is then its last and
changes nothing; such an operation comes to the raise itself where the capability is there; and with all
capabilities nothing is aborted. -/
theorem capabilities_gate :
    (∀ {α : Type} (o : Operation ω α) (s : State),
      m.Gates host (o.trace m (rs.inside m host fuel) s) (o.run m host (rs.natives m host fuel) s)) ∧
    (∀ {β : Type} (r : Routine ω β) (s : State),
      m.Gates host (r.trace m host (rs.natives m host fuel) (rs.inside m host fuel) s)
        (r.run m host (rs.natives m host fuel) s)) ∧
    (∀ {α : Type} (o : Operation ω α) (r : Raise) (natives : Natives) (s : State),
      o.reaches host = some r → o.run m host natives s = .error (m.capabilities.raising r) s) ∧
    (m.capabilities.has .mapping = false → ∀ (natives : Natives) (this : Attr) (items : Array Attr)
      (s : State), m.populateMapping natives this items s = .error (.aborted .mapping) s) ∧
    ((∀ c, m.capabilities.has c) → ∀ {α : Type} (o : Operation ω α) (s s' : State) (c : Capability),
      o.run m host (rs.natives m host fuel) s ≠ .error (.aborted c) s') := by
  have hoperation : ∀ {α : Type} (o : Operation ω α) (s : State),
      m.Gates host (o.trace m (rs.inside m host fuel) s) (o.run m host (rs.natives m host fuel) s) :=
    fun o s => (gated_operation (gated_inside rs fuel) o s).gates
  refine ⟨hoperation, fun r s => (gated_routine (gated_inside rs fuel) r s).gates,
    fun o r natives s h => Operation.run_of_reaches h natives s, fun hlacks natives this items s => ?_,
    fun hall α o s s' c h => ?_⟩
  · have hunmet : m.Lacks host ⟨.populateMapping this items, s⟩ .mapping := ⟨rfl, hlacks⟩
    exact Operation.run_of_lacks hunmet natives
  · obtain ⟨e, -, -, hlacks⟩ := ((hoperation o s).aborted_iff c).1 ⟨s', h⟩
    simp [hall c] at hlacks

end Routines

namespace Sample

/-- A host on which no path leads to anything. -/
def host : Host Unit where
  openFile _ _ w := (.error .noEntry, w)
  close _ w := (.ok (), w)
  read _ _ w := (.ok [], w)
  write _ bs w := (.ok bs.length, w)
  reserves _ := true
  interruptions _ := 0
  interruptions_lt := nofun

def opening : Operation Unit Int := .openFile () [0x61] ⟨.readOnly, false, false, false, false, false⟩

/-- Opens a file and answers nothing if that raises. -/
def routines : Routines Unit := fun _ _ =>
  .attempt opening fun
    | .ok fd => .done (.int (Int64.ofInt fd))
    | .error _ => .done .null

def calling : Operation Unit Attr := .invoke (.ofObject ⟨1⟩) false keywords #[.null]

def recorded : Array Call := #[⟨.named "record", #[.int 1, .int 5, .int 6, .int 30]⟩]

end Sample

/-- A native that handles every raise is called. Without errors of input and output it ends the program
before it comes to that; with them it has its answer. -/
theorem Routines.capabilities_gate_sample :
    Sample.calling.run Sample.machine Sample.host (Sample.routines.natives Sample.machine Sample.host 1)
        Sample.state = .error (.aborted .ioError) { Sample.state with calls := Sample.recorded } ∧
    ∃ m : Machine, m.capabilities = .ofList [.ioError] ∧
      Sample.calling.run m Sample.host (Sample.routines.natives m Sample.host 1) Sample.state =
        .ok .null { Sample.state with calls := Sample.recorded } := by
  refine ⟨?_, { Sample.machine with capabilities := .ofList [.ioError] }, rfl, rfl⟩
  have hgates := (capabilities_gate Sample.machine Sample.host Sample.routines 1).1 Sample.calling Sample.state
  exact (hgates.last [⟨Sample.calling, Sample.state⟩]
    ⟨Sample.opening, { Sample.state with calls := Sample.recorded }⟩ [] .ioError rfl ⟨rfl, rfl⟩).2

end ObjectRuntime
