import PluginBridge.Browser.Environment

/-!
# The stages of an acquisition

An acquisition asks for the window, its storage, the estimate of the available space and the root
directory, and each of them may fail in its own way.  `Acquires` lists the ways, each with the value
that is told; `acquires_iff` says that these are all, and that every promise that settles leads to
one of them.

Whatever way it takes, an acquisition touches each thing once at most and in one order
(`touches_acquire_sublist`), and it asks for the root directory only where there is room for it
(`callGetDirectory_mem_iff`).
-/

namespace PluginBridge.Browser

variable {η ω : Type}

/-! ## The estimate -/

/-- What the browser tells about the available space: a number or nothing, or a value in place of
an answer. -/
inductive Estimate.Tells : Estimate → Except Value (Option Binary64) → Prop where
  /-- The property is no function, so there is no estimate to call. -/
  | absent {value : Value} (hvalue : value ≠ .function) : Tells (.property value) (.ok none)
  /-- The function returns `undefined`, which is no promise. -/
  | noPromise : Tells (.property .function) (.error .undefined)
  | threw (value : Value) : Tells (.throws value) (.error value)
  | returned (value : Value) : Tells (.returns value) (.error value)
  | rejected {promise : Promise Value} {value : Value} (h : promise.outcome = .error value) :
      Tells (.promises promise) (.error value)
  /-- The promise resolves to something that has no properties. -/
  | noObject {promise : Promise Value} {settled value : Value} (h : promise.outcome = .ok settled)
      (hquota : settled.property? "quota" = .error value) :
      Tells (.promises promise) (.error value)
  /-- The property `quota` counts if it is a number. -/
  | told {promise : Promise Value} {settled quota : Value} (h : promise.outcome = .ok settled)
      (hquota : settled.property? "quota" = .ok quota) :
      Tells (.promises promise) (.ok quota.asNumber?)

/-- A promised estimate is waited for, and then its quota is looked up. -/
theorem Estimate.run_available_promises (promise : Promise Value) (world : ω) :
    (Estimate.promises promise).available.run world =
      match promise.outcome with
      | .error value => ⟨[.estimate, .callEstimate], .error value⟩
      | .ok settled =>
        ⟨[.estimate, .callEstimate, .quota], (settled.property? "quota").map Value.asNumber?⟩ := by
  simp only [available, promise?, Touched.onSuccess, await, Future.run_map, Future.run,
    Future.run_delayed]
  cases promise.outcome <;> rfl

theorem Estimate.tells (estimate : Estimate) (world : ω) :
    estimate.Tells (estimate.available.run world).result := by
  cases estimate with
  | property value =>
    cases value with
    | function => exact .noPromise
    | _ => exact .absent (by simp)
  | throws value => exact .threw value
  | returns value => exact .returned value
  | promises promise =>
    rw [run_available_promises]
    cases h : promise.outcome with
    | error value => exact .rejected h
    | ok settled =>
      cases hquota : settled.property? "quota" with
      | error value =>
        simp only [hquota, Except.map]
        exact .noObject h hquota
      | ok quota =>
        simp only [hquota, Except.map]
        exact .told h hquota

/-- An estimate tells one thing. -/
theorem Estimate.Tells.unique {estimate : Estimate} {a b : Except Value (Option Binary64)}
    (ha : estimate.Tells a) (hb : estimate.Tells b) : a = b := by
  cases ha <;> cases hb <;> simp_all

/-- Does the estimate leave room for a quota?  Where nothing is told, nothing stands against it. -/
def Estimate.LeavesRoom (estimate : Estimate) (quota : UInt64) : Prop :=
  ∃ available, estimate.Tells (.ok available) ∧
    ∀ space, available = some space → space.lt (.ofNat quota.toNat) = false

theorem checkSpace_cases (quota : UInt64) (available : Option Binary64) :
    (checkSpace quota available = .ok () ∧
        ∀ space, available = some space → space.lt (.ofNat quota.toNat) = false) ∨
      ∃ space, available = some space ∧ space.lt (.ofNat quota.toNat) = true ∧
        checkSpace quota available = .error (.string
          s!"quota {quota} exceeds available storage {NumberLayout.plain.write space}") := by
  cases available with
  | none => exact .inl ⟨rfl, by simp⟩
  | some space =>
    cases hless : space.lt (.ofNat quota.toNat) with
    | true => exact .inr ⟨space, rfl, hless, by simp [checkSpace, hless]⟩
    | false => exact .inl ⟨by simp [checkSpace, hless], by simpa using hless⟩

/-! ## The whole acquisition -/

/-- The page has a window, and the window this storage. -/
def Environment.Offers (env : Environment η ω) (manager : StorageManager η ω) : Prop :=
  env.hasWindow = true ∧ env.storage = some manager

/-- A page has no window, or no storage, or one to ask. -/
theorem Environment.offers_cases (env : Environment η ω) :
    env.hasWindow = false ∨ (env.hasWindow = true ∧ env.storage = none) ∨
      ∃ manager, env.Offers manager := by
  cases hwindow : env.hasWindow with
  | false => exact .inl rfl
  | true =>
    cases hstorage : env.storage with
    | none => exact .inr (.inl ⟨rfl, rfl⟩)
    | some manager => exact .inr (.inr ⟨manager, hwindow, hstorage⟩)

theorem Environment.Offers.unique {env : Environment η ω} {a b : StorageManager η ω}
    (ha : env.Offers a) (hb : env.Offers b) : a = b :=
  Option.some.inj (ha.2.symm.trans hb.2)

/-- The ways in which an acquisition can end: a root directory, or the value that is told. -/
inductive Acquires [Handle η] (env : Environment η ω) (world : ω) (quota : UInt64) :
    Except Value η → Prop where
  | noWindow (hwindow : env.hasWindow = false) :
      Acquires env world quota (.error (.string "No window"))
  | noStorage (hwindow : env.hasWindow = true) (hstorage : env.storage = none) :
      Acquires env world quota
        (.error (Value.typeError "Reflect.get called on non-object"))
  /-- The estimate throws, gives no promise, is rejected or resolves to nothing that has
  properties. -/
  | noEstimate {manager : StorageManager η ω} {value : Value} (hoffer : env.Offers manager)
      (hestimate : manager.estimate.Tells (.error value)) : Acquires env world quota (.error value)
  | noRoom {manager : StorageManager η ω} {space : Binary64} (hoffer : env.Offers manager)
      (hestimate : manager.estimate.Tells (.ok (some space)))
      (hless : space.lt (.ofNat quota.toNat) = true) :
      Acquires env world quota (.error (.string
        s!"quota {quota} exceeds available storage {NumberLayout.plain.write space}"))
  /-- The promise of the root is rejected. -/
  | noRoot {manager : StorageManager η ω} {value : Value} (hoffer : env.Offers manager)
      (hroom : manager.estimate.LeavesRoom quota)
      (hroot : (manager.root world).outcome = .error value) :
      Acquires env world quota (.error value)
  /-- The promise of the root resolves to something else. -/
  | noDirectory {manager : StorageManager η ω} {settled : Settled η} (hoffer : env.Offers manager)
      (hroom : manager.estimate.LeavesRoom quota)
      (hroot : (manager.root world).outcome = .ok settled)
      (hkind : ∀ root, settled = .handle root → Handle.kind root ≠ .directory) :
      Acquires env world quota (.error settled.value)
  | granted {manager : StorageManager η ω} {root : η} (hoffer : env.Offers manager)
      (hroom : manager.estimate.LeavesRoom quota)
      (hroot : (manager.root world).outcome = .ok (.handle root))
      (hkind : Handle.kind root = .directory) : Acquires env world quota (.ok root)

section

variable [Handle η] {env : Environment η ω} {world : ω} {quota : UInt64}

omit [Handle η] in
theorem manager_of_offer {manager : StorageManager η ω} (hoffer : env.Offers manager) :
    env.manager = ⟨[.window, .storage], .ok manager⟩ := by
  obtain ⟨hwindow, hstorage⟩ := hoffer
  rw [Environment.manager, if_pos hwindow, hstorage]

theorem run_acquireRoot (manager : StorageManager η ω) (world : ω) :
    manager.acquireRoot.run world =
      ⟨[.callGetDirectory], (manager.root world).outcome.bind (Settled.ofKind .directory)⟩ := by
  simp [StorageManager.acquireRoot, await, Future.run]

/-- With a storage to ask, the estimate comes first and then the root. -/
theorem result_acquire {manager : StorageManager η ω} (hoffer : env.Offers manager) :
    ((env.acquire quota).run world).result =
      ((manager.estimate.available.run world).result.bind (checkSpace quota)).bind fun _ =>
        (manager.root world).outcome.bind (Settled.ofKind .directory) := by
  rw [Environment.acquire, Touched.result_run_onSuccess, manager_of_offer hoffer, Except.bind,
    Future.run_andThen, Touched.result_run_onSuccess, Touched.map, run_acquireRoot]

/-- Whether a root is taken is a matter of what the promise resolves to. -/
theorem ofKind_directory_cases (settled : Settled η) :
    (∃ root, settled = .handle root ∧ Handle.kind root = .directory ∧
        settled.ofKind .directory = .ok root) ∨
      ((∀ root, settled = .handle root → Handle.kind root ≠ .directory) ∧
        settled.ofKind .directory = .error settled.value) := by
  cases settled with
  | handle held =>
    by_cases hkind : Handle.kind held = .directory
    · exact .inl ⟨held, rfl, hkind, if_pos hkind⟩
    · refine .inr ⟨?_, if_neg hkind⟩
      rintro root heq
      cases heq
      exact hkind
  | _ => exact .inr ⟨by simp, rfl⟩

theorem run_acquire_of_no_window (hwindow : env.hasWindow = false) :
    (env.acquire quota).run world = ⟨[.window], .error (.string "No window")⟩ := by
  simp [Environment.acquire, Environment.manager, hwindow, Touched.onSuccess, Future.run]

theorem run_acquire_of_no_storage (hwindow : env.hasWindow = true) (hstorage : env.storage = none) :
    (env.acquire quota).run world =
      ⟨[.window, .storage], .error (Value.typeError "Reflect.get called on non-object")⟩ := by
  simp [Environment.acquire, Environment.manager, hwindow, hstorage, Touched.onSuccess, Future.run]

/-- With a storage to ask, the acquisition ends in one of the ways that a storage allows. -/
theorem acquires_of_offer {manager : StorageManager η ω} (hoffer : env.Offers manager) :
    Acquires env world quota ((env.acquire quota).run world).result := by
  have htells := manager.estimate.tells world
  rw [result_acquire hoffer]
  cases hestimate : (manager.estimate.available.run world).result with
  | error value =>
    rw [hestimate] at htells
    exact .noEstimate hoffer htells
  | ok available =>
    rw [hestimate] at htells
    rcases checkSpace_cases quota available with ⟨hok, hfree⟩ | ⟨space, rfl, hless, hrefused⟩
    · have hroom : manager.estimate.LeavesRoom quota := ⟨available, htells, hfree⟩
      simp only [Except.bind, hok]
      cases hroot : (manager.root world).outcome with
      | error value => exact .noRoot hoffer hroom hroot
      | ok settled =>
        rcases ofKind_directory_cases settled with
          ⟨root, rfl, hkind, htaken⟩ | ⟨hkind, hrefused⟩
        · simp only [htaken]
          exact .granted hoffer hroom hroot hkind
        · simp only [hrefused]
          exact .noDirectory hoffer hroom hroot hkind
    · simp only [Except.bind, hrefused]
      exact .noRoom hoffer htells hless

/-- An acquisition ends in one of the listed ways. -/
theorem acquires_run (env : Environment η ω) (world : ω) (quota : UInt64) :
    Acquires env world quota ((env.acquire quota).run world).result := by
  rcases env.offers_cases with hwindow | ⟨hwindow, hstorage⟩ | ⟨manager, hoffer⟩
  · rw [run_acquire_of_no_window hwindow]
    exact .noWindow hwindow
  · rw [run_acquire_of_no_storage hwindow hstorage]
    exact .noStorage hwindow hstorage
  · exact acquires_of_offer hoffer

/-- There is room for the quota exactly if the check of the estimate passes. -/
theorem leavesRoom_iff (world : ω) {estimate : Estimate} : estimate.LeavesRoom quota ↔
    (estimate.available.run world).result.bind (checkSpace quota) = .ok () := by
  have htells := estimate.tells world
  constructor
  · rintro ⟨available, htells', hfree⟩
    rw [htells.unique htells']
    rcases checkSpace_cases quota available with ⟨hok, -⟩ | ⟨space, hspace, hless, -⟩
    · exact hok
    · exact absurd (hfree space hspace) (by simp [hless])
  · intro hchecked
    cases hestimate : (estimate.available.run world).result with
    | error value =>
      rw [hestimate] at hchecked
      cases hchecked
    | ok available =>
      rw [hestimate] at htells hchecked
      rcases checkSpace_cases quota available with ⟨-, hfree⟩ | ⟨space, -, -, hrefused⟩
      · exact ⟨available, htells, hfree⟩
      · cases hrefused.symm.trans hchecked

/-- With room for the quota, the root decides. -/
theorem result_acquire_of_room {manager : StorageManager η ω} (hoffer : env.Offers manager)
    (hroom : manager.estimate.LeavesRoom quota) :
    ((env.acquire quota).run world).result =
      (manager.root world).outcome.bind (Settled.ofKind .directory) := by
  rw [result_acquire hoffer, (leavesRoom_iff world).1 hroom]
  rfl

/-- Each of the listed ways is what the acquisition does. -/
theorem Acquires.run_eq {result : Except Value η} (h : Acquires env world quota result) :
    ((env.acquire quota).run world).result = result := by
  cases h with
  | noWindow hwindow => rw [run_acquire_of_no_window hwindow]
  | noStorage hwindow hstorage => rw [run_acquire_of_no_storage hwindow hstorage]
  | @noEstimate manager value hoffer hestimate =>
    rw [result_acquire hoffer, (manager.estimate.tells world).unique hestimate]
    rfl
  | @noRoom manager space hoffer hestimate hless =>
    rw [result_acquire hoffer, (manager.estimate.tells world).unique hestimate]
    rcases checkSpace_cases quota (some space) with ⟨-, hfree⟩ | ⟨_, heq, -, hrefused⟩
    · exact absurd (hfree space rfl) (by simp [hless])
    · cases heq
      simp only [Except.bind, hrefused]
  | noRoot hoffer hroom hroot =>
    rw [result_acquire_of_room hoffer hroom, hroot]
    rfl
  | @noDirectory manager settled hoffer hroom hroot hkind =>
    rw [result_acquire_of_room hoffer hroom, hroot]
    rcases ofKind_directory_cases settled with ⟨root, heq, hdir, -⟩ | ⟨-, hrefused⟩
    · exact absurd hdir (hkind root heq)
    · exact hrefused
  | granted hoffer hroom hroot hkind =>
    rw [result_acquire_of_room hoffer hroom, hroot]
    exact if_pos hkind

/-- **The listed ways are all.**  In each of them the acquisition ends with the value that is told,
and whatever promises settle to, it ends in one of them. -/
theorem acquires_iff {result : Except Value η} :
    Acquires env world quota result ↔ ((env.acquire quota).run world).result = result := by
  constructor
  · exact Acquires.run_eq
  · rintro rfl
    exact acquires_run env world quota

/-! ## What is touched -/

theorem Estimate.touches_promise?_sublist (estimate : Estimate) :
    estimate.promise?.touches.Sublist [.estimate, .callEstimate] := by
  cases estimate with
  | property value => cases value <;> simp [promise?]
  | _ => exact List.Sublist.refl _

/-- The quota of an estimate is touched last. -/
theorem Estimate.touches_available_sublist (estimate : Estimate) (world : ω) :
    (estimate.available.run world).touches.Sublist [.estimate, .callEstimate, .quota] := by
  rw [available, Touched.touches_run_onSuccess]
  refine estimate.touches_promise?_sublist.append ?_
  cases estimate.promise?.result with
  | error value => exact List.nil_sublist _
  | ok promise? =>
    cases promise? with
    | none => exact List.nil_sublist _
    | some promise =>
      simp only [await, Future.run_map, Future.run, Future.run_delayed]
      cases promise.outcome with
      | error value => exact List.nil_sublist _
      | ok settled => exact List.Sublist.refl _

/-- With a storage to ask, the root is touched after the estimate, and only if there is room. -/
theorem touches_acquire_of_offer {manager : StorageManager η ω} (hoffer : env.Offers manager) :
    ((env.acquire quota).run world).touches =
      [.window, .storage] ++ ((manager.estimate.available.run world).touches ++
        match (manager.estimate.available.run world).result.bind (checkSpace quota) with
        | .error _ => []
        | .ok _ => [.callGetDirectory]) := by
  rw [Environment.acquire, Touched.touches_run_onSuccess, manager_of_offer hoffer]
  simp only [Future.run_andThen, Touched.touches_run_onSuccess, Touched.map, run_acquireRoot]
  cases (manager.estimate.available.run world).result.bind (checkSpace quota) <;> rfl

/-- **The order of an acquisition.**  Everything is touched once at most, and in this order. -/
theorem touches_acquire_sublist (env : Environment η ω) (world : ω) (quota : UInt64) :
    ((env.acquire quota).run world).touches.Sublist
      [.window, .storage, .estimate, .callEstimate, .quota, .callGetDirectory] := by
  rcases env.offers_cases with hwindow | ⟨hwindow, hstorage⟩ | ⟨manager, hoffer⟩
  · rw [run_acquire_of_no_window hwindow]
    simp
  · rw [run_acquire_of_no_storage hwindow hstorage]
    simp
  · rw [touches_acquire_of_offer hoffer]
    refine (List.Sublist.refl [Touch.window, Touch.storage]).append ?_
    refine (manager.estimate.touches_available_sublist world).append ?_
    split
    · exact List.nil_sublist _
    · exact List.Sublist.refl _

/-- The root directory is asked for exactly where a storage leaves room for the quota. -/
theorem callGetDirectory_mem_iff :
    .callGetDirectory ∈ ((env.acquire quota).run world).touches ↔
      ∃ manager, env.Offers manager ∧ manager.estimate.LeavesRoom quota := by
  rcases env.offers_cases with hwindow | ⟨hwindow, hstorage⟩ | ⟨manager, hoffer⟩
  · rw [run_acquire_of_no_window hwindow]
    simp [Environment.Offers, hwindow]
  · rw [run_acquire_of_no_storage hwindow hstorage]
    simp [Environment.Offers, hstorage]
  · have honly : (∃ offered, env.Offers offered ∧ offered.estimate.LeavesRoom quota) ↔
        manager.estimate.LeavesRoom quota := by
      constructor
      · rintro ⟨offered, hoffered, hroom⟩
        rwa [hoffer.unique hoffered]
      · exact fun hroom => ⟨manager, hoffer, hroom⟩
    have hestimate : .callGetDirectory ∉ (manager.estimate.available.run world).touches := by
      intro hmem
      have hlisted := (manager.estimate.touches_available_sublist world).subset hmem
      simp at hlisted
    rw [honly, leavesRoom_iff world, touches_acquire_of_offer hoffer]
    cases (manager.estimate.available.run world).result.bind (checkSpace quota) <;>
      simp [hestimate]

end

end PluginBridge.Browser
