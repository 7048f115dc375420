/-
Module: MultiConnect.Proofs.DefaultRoutes
Layer: Proofs
Purpose: The order of the routing table. However routes are announced and removed, the default routes
  form the end of the table, and the specific routes stand before them in the order of their first
  announcement since their endpoint was last removed; one swap for each insertion keeps it so, because
  it exchanges the first default route with the last entry. Between two default routes the same swap
  is not idle: announcing a route again leaves the table alone exactly while it has at most one of them.
Trusted boundary: none
Main exports: Router.FirstAnnouncedAt, Router.AnnouncedBefore, Router.Ordered, Router.ordered_after,
  Router.SwapsBack, Router.iterate_defaultLast_eq_self_iff, Router.Idempotent, Router.ReachedBySpecific,
  default_routes_stay_last, reannounce_idempotent_iff
-/
import MultiConnect.Proofs.RouterHistory

namespace MultiConnect

namespace Router

/-! ### The swap -/

/-- Swapping the first and the last entry of the end of a list. -/
theorem swapEntries_ends {α : Type} (front middle : List α) (first last : α) :
    swapEntries (front ++ first :: (middle ++ [last])) front.length
        (front.length + middle.length + 1) =
      front ++ last :: (middle ++ [first]) := by
  have hfirst : (front ++ first :: (middle ++ [last]))[front.length]? = some first := by simp
  have hlast : (front ++ first :: (middle ++ [last]))[front.length + middle.length + 1]? =
      some last := by
    rw [Nat.add_assoc, List.getElem?_append_right (by omega)]
    simp
  simp only [swapEntries, hfirst, hlast]
  rw [List.set_append_right _ _ (Nat.le_refl _), Nat.sub_self, List.set_cons_zero,
    List.set_append_right _ _ (by omega)]
  have hplace : front.length + middle.length + 1 - front.length = middle.length + 1 := by omega
  rw [hplace, List.set_cons_succ, List.set_append_right _ _ (Nat.le_refl _), Nat.sub_self,
    List.set_cons_zero]

variable {specific defaults middle : List AddressEndpointMapping} {first last : AddressEndpointMapping}

theorem findIdx?_specific (hspecific : ∀ aem ∈ specific, aem.address.isDefault = false) :
    specific.findIdx? (fun n => n.address.isDefault) = none := by
  rw [List.findIdx?_eq_none_iff]
  exact hspecific

theorem findIdx?_default (hspecific : ∀ aem ∈ specific, aem.address.isDefault = false) :
    (specific ++ defaults).findIdx? (fun n => n.address.isDefault) =
      (defaults.findIdx? fun n => n.address.isDefault).map (· + specific.length) := by
  rw [List.findIdx?_append, findIdx?_specific hspecific, Option.none_or]

/-- A table without default routes stays as it is. -/
theorem defaultLast_of_specific (hspecific : ∀ aem ∈ specific, aem.address.isDefault = false) :
    defaultLast specific = specific := by
  simp [defaultLast, findIdx?_specific hspecific]

/-- So does one whose only default route is the last entry. -/
theorem defaultLast_of_last (hspecific : ∀ aem ∈ specific, aem.address.isDefault = false)
    (hfirst : first.address.isDefault = true) :
    defaultLast (specific ++ [first]) = specific ++ [first] := by
  simp [defaultLast, findIdx?_default hspecific, List.findIdx?_cons, hfirst]

/-- Else the first default route and the last entry change places. -/
theorem defaultLast_of_first (hspecific : ∀ aem ∈ specific, aem.address.isDefault = false)
    (hfirst : first.address.isDefault = true) :
    defaultLast (specific ++ first :: (middle ++ [last])) = specific ++ last :: (middle ++ [first]) := by
  have hlength : (specific ++ first :: (middle ++ [last])).length - 1 =
      specific.length + middle.length + 1 := by
    simp only [List.length_append, List.length_cons, List.length_nil]
    omega
  simp only [defaultLast, findIdx?_default hspecific, List.findIdx?_cons, hfirst, hlength]
  simp only [Option.map_some, Nat.zero_add, swapEntries_ends, if_true]
  rw [if_pos (by omega)]

/-! ### The order of the table -/

/-- The entry is in the table since the announcement at the position. -/
def FirstAnnouncedAt (ops : List RouterOp) (aem : AddressEndpointMapping) (position : Nat) : Prop :=
  History.Since (· = .insertRoute aem.address aem.endpointId)
    (· = .removeRouteToEndpoint aem.endpointId) ops position

/-- The one entry is in the table for longer than the other. -/
def AnnouncedBefore (ops : List RouterOp) (first second : AddressEndpointMapping) : Prop :=
  ∃ m n, FirstAnnouncedAt ops first m ∧ FirstAnnouncedAt ops second n ∧ m < n

/-- The table: specific routes, each announced before the next, and behind them the default routes. -/
structure Ordered (ops : List RouterOp) (specific defaults : List AddressEndpointMapping) : Prop where
  table : (after ops).routes = specific ++ defaults
  allSpecific : ∀ aem ∈ specific, aem.address.isDefault = false
  allDefault : ∀ aem ∈ defaults, aem.address.isDefault = true
  since : ∀ aem ∈ specific, ∃ position, FirstAnnouncedAt ops aem position
  ordered : specific.Pairwise (AnnouncedBefore ops)

variable {ops past : List RouterOp} {address : Route} {endpointId : EndpointId}

theorem FirstAnnouncedAt.insertRoute {aem : AddressEndpointMapping} {position : Nat}
    (h : FirstAnnouncedAt past aem position) (address : Route) (endpointId : EndpointId) :
    FirstAnnouncedAt (past ++ [.insertRoute address endpointId]) aem position :=
  h.concat nofun

theorem AnnouncedBefore.insertRoute {first second : AddressEndpointMapping}
    (h : AnnouncedBefore past first second) (address : Route) (endpointId : EndpointId) :
    AnnouncedBefore (past ++ [.insertRoute address endpointId]) first second := by
  obtain ⟨m, n, hfirst, hsecond, hlt⟩ := h
  exact ⟨m, n, hfirst.insertRoute address endpointId, hsecond.insertRoute address endpointId, hlt⟩

/-- Among default routes the swap only reorders them. -/
theorem defaultLast_defaults (hspecific : ∀ aem ∈ specific, aem.address.isDefault = false)
    (hdefaults : ∀ aem ∈ defaults, aem.address.isDefault = true) :
    ∃ reordered, defaultLast (specific ++ defaults) = specific ++ reordered ∧
      reordered.Perm defaults := by
  have hperm := defaultLast_perm (specific ++ defaults)
  cases defaults with
  | nil => exact ⟨[], by simpa using defaultLast_of_specific hspecific, List.Perm.refl []⟩
  | cons first rest =>
      have hfirst := hdefaults first List.mem_cons_self
      cases rest using List.reverseRecOn with
      | nil => exact ⟨[first], defaultLast_of_last hspecific hfirst, List.Perm.refl _⟩
      | append_singleton middle last =>
          rw [defaultLast_of_first hspecific hfirst] at hperm ⊢
          exact ⟨_, rfl, (List.perm_append_left_iff specific).mp hperm⟩

/-- A specific route that was pushed behind the default routes takes the place of the first. -/
theorem defaultLast_pushed (hspecific : ∀ aem ∈ specific, aem.address.isDefault = false)
    (hdefaults : ∀ aem ∈ defaults, aem.address.isDefault = true)
    (hlast : last.address.isDefault = false) :
    ∃ reordered, defaultLast (specific ++ defaults ++ [last]) = specific ++ [last] ++ reordered ∧
      reordered.Perm defaults := by
  cases defaults with
  | nil =>
      refine ⟨[], ?_, List.Perm.refl []⟩
      rw [List.append_nil, List.append_nil]
      exact defaultLast_of_specific fun aem hmem =>
        (List.mem_append.mp hmem).elim (hspecific aem) fun h => List.mem_singleton.mp h ▸ hlast
  | cons first middle =>
      refine ⟨middle ++ [first], ?_, List.perm_append_singleton first middle⟩
      rw [List.append_assoc, List.cons_append,
        defaultLast_of_first hspecific (hdefaults first List.mem_cons_self)]
      simp

/-- As long as only default routes stand behind them, the swap keeps the specific routes. -/
theorem Ordered.insertRoute_of_learn (h : Ordered past specific defaults)
    {more : List AddressEndpointMapping} (hmore : ∀ aem ∈ more, aem.address.isDefault = true)
    (hlearn : learn (after past).routes ⟨address, endpointId⟩ = specific ++ more) :
    ∃ reordered, Ordered (past ++ [.insertRoute address endpointId]) specific reordered := by
  obtain ⟨reordered, hswap, hperm⟩ := defaultLast_defaults h.allSpecific hmore
  refine ⟨reordered, ?_, h.allSpecific, fun aem hmem => hmore aem (hperm.mem_iff.mp hmem),
    fun aem hmem => ?_, h.ordered.imp fun hbefore => hbefore.insertRoute address endpointId⟩
  · rw [after_concat, RouterOp.apply, Router.insertRoute, hlearn, hswap]
  · obtain ⟨position, hsince⟩ := h.since aem hmem
    exact ⟨position, hsince.insertRoute address endpointId⟩

/-- A known route is not pushed. -/
theorem Ordered.insertRoute_known (h : Ordered past specific defaults)
    (known : ⟨address, endpointId⟩ ∈ (after past).routes) :
    ∃ reordered, Ordered (past ++ [.insertRoute address endpointId]) specific reordered := by
  refine h.insertRoute_of_learn h.allDefault ?_
  rw [learn, if_pos known, h.table]

/-- A new default route is pushed behind the others. -/
theorem Ordered.insertRoute_default (h : Ordered past specific defaults)
    (hnew : ⟨address, endpointId⟩ ∉ (after past).routes) (hdefault : address.isDefault = true) :
    ∃ reordered, Ordered (past ++ [.insertRoute address endpointId]) specific reordered := by
  have hmore : ∀ aem ∈ defaults ++ [⟨address, endpointId⟩], aem.address.isDefault = true := by
    intro aem hmem
    exact (List.mem_append.mp hmem).elim (h.allDefault aem) fun h => List.mem_singleton.mp h ▸ hdefault
  refine h.insertRoute_of_learn hmore ?_
  rw [learn, if_neg hnew, h.table, List.append_assoc]

/-- A new specific route stands last among them. -/
theorem Ordered.insertRoute_specific (h : Ordered past specific defaults)
    (hnew : ⟨address, endpointId⟩ ∉ (after past).routes) (hspecific : address.isDefault = false) :
    ∃ reordered, Ordered (past ++ [.insertRoute address endpointId])
      (specific ++ [⟨address, endpointId⟩]) reordered := by
  have hpushed : (⟨address, endpointId⟩ : AddressEndpointMapping).address.isDefault = false := hspecific
  obtain ⟨reordered, hswap, hperm⟩ := defaultLast_pushed h.allSpecific h.allDefault hpushed
  have hsince : FirstAnnouncedAt (past ++ [.insertRoute address endpointId])
      ⟨address, endpointId⟩ past.length :=
    History.since_of_announces rfl fun hlive => hnew (mem_after.mpr hlive)
  refine ⟨reordered, ?_, fun aem hmem => ?_,
    fun aem hmem => h.allDefault aem (hperm.mem_iff.mp hmem), fun aem hmem => ?_, ?_⟩
  · rw [after_concat, RouterOp.apply, Router.insertRoute, learn, if_neg hnew, h.table, hswap]
  · exact (List.mem_append.mp hmem).elim (h.allSpecific aem) fun h => List.mem_singleton.mp h ▸ hspecific
  · rcases List.mem_append.mp hmem with hmem | hmem
    · obtain ⟨position, hsince⟩ := h.since aem hmem
      exact ⟨position, hsince.insertRoute address endpointId⟩
    · exact ⟨past.length, List.mem_singleton.mp hmem ▸ hsince⟩
  · refine List.pairwise_append.mpr ⟨h.ordered.imp fun hbefore => hbefore.insertRoute ..,
      List.pairwise_singleton .., fun first hfirst second hsecond => ?_⟩
    -- everything announced so far comes before the call that is made now
    obtain ⟨position, hearlier⟩ := h.since first hfirst
    obtain rfl := List.mem_singleton.mp hsecond
    exact ⟨position, past.length, hearlier.insertRoute .., hsince, hearlier.lt_length⟩

theorem Ordered.removeRouteToEndpoint (h : Ordered past specific defaults)
    (endpointId : EndpointId) :
    Ordered (past ++ [.removeRouteToEndpoint endpointId])
      (specific.filter fun aem => aem.endpointId ≠ endpointId)
      (defaults.filter fun aem => aem.endpointId ≠ endpointId) := by
  have hkept : ∀ {aem : AddressEndpointMapping} {position : Nat}, aem.endpointId ≠ endpointId →
      FirstAnnouncedAt past aem position →
        FirstAnnouncedAt (past ++ [.removeRouteToEndpoint endpointId]) aem position := by
    intro aem position hother hsince
    exact hsince.concat fun heq => hother (RouterOp.removeRouteToEndpoint.inj heq).symm
  refine ⟨?_, fun aem hmem => h.allSpecific aem (List.mem_of_mem_filter hmem),
    fun aem hmem => h.allDefault aem (List.mem_of_mem_filter hmem), fun aem hmem => ?_, ?_⟩
  · rw [after_concat, RouterOp.apply, Router.removeRouteToEndpoint, h.table, List.filter_append]
  · obtain ⟨hmem, hother⟩ := List.mem_filter.mp hmem
    obtain ⟨position, hsince⟩ := h.since aem hmem
    exact ⟨position, hkept (by simpa using hother) hsince⟩
  · refine (h.ordered.filter _).imp_of_mem fun hfirst hsecond hbefore => ?_
    obtain ⟨m, n, hm, hn, hlt⟩ := hbefore
    exact ⟨m, n, hkept (by simpa using (List.mem_filter.mp hfirst).2) hm,
      hkept (by simpa using (List.mem_filter.mp hsecond).2) hn, hlt⟩

/-- The table is ordered after every history of calls. -/
theorem ordered_after (ops : List RouterOp) :
    ∃ specific defaults, Ordered ops specific defaults := by
  induction ops using List.reverseRecOn with
  | nil => exact ⟨[], [], rfl, by simp, by simp, by simp, List.Pairwise.nil⟩
  | append_singleton past op ih =>
      obtain ⟨specific, defaults, h⟩ := ih
      cases op with
      | insertRoute address endpointId =>
          by_cases known : ⟨address, endpointId⟩ ∈ (after past).routes
          · exact ⟨specific, h.insertRoute_known known⟩
          · cases hdefault : address.isDefault with
            | true => exact ⟨specific, h.insertRoute_default known hdefault⟩
            | false => exact ⟨_, h.insertRoute_specific known hdefault⟩
      | removeRouteToEndpoint endpointId =>
          exact ⟨_, _, h.removeRouteToEndpoint endpointId⟩

/-! ### Announcing again -/

/-- The swap is idle exactly while there is at most one default route. -/
theorem defaultLast_eq_self_iff (hspecific : ∀ aem ∈ specific, aem.address.isDefault = false)
    (hdefaults : ∀ aem ∈ defaults, aem.address.isDefault = true) (hnodup : (specific ++ defaults).Nodup) :
    defaultLast (specific ++ defaults) = specific ++ defaults ↔ defaults.length ≤ 1 := by
  cases defaults with
  | nil => simp [defaultLast_of_specific hspecific]
  | cons first rest =>
      have hfirst := hdefaults first List.mem_cons_self
      cases rest using List.reverseRecOn with
      | nil => simp [defaultLast_of_last hspecific hfirst]
      | append_singleton middle last =>
          rw [defaultLast_of_first hspecific hfirst]
          refine iff_of_false (fun heq => ?_) (by simp)
          have hends : last = first :=
            (List.cons_eq_cons.mp (List.append_cancel_left heq)).1
          have htail := (List.nodup_append.mp hnodup).2.1
          exact (List.nodup_cons.mp htail).1 (by simp [hends])

/-- Repeated swaps leave the table as it was in the end: there is none, or the first default route is the
    last entry, or missing, or the last entry is a default route as well and the swaps come in pairs. -/
def SwapsBack (routes : List AddressEndpointMapping) (swaps : Nat) : Prop :=
  swaps = 0 ∨
    (∀ first, routes.find? (fun aem => aem.address.isDefault) = some first →
      routes.getLast? = some first) ∨
    (∃ last, routes.getLast? = some last ∧ last.address.isDefault = true) ∧ swaps % 2 = 0

/-- The swap does not reach into specific routes at the front. -/
theorem prefix_defaultLast (hspecific : ∀ aem ∈ specific, aem.address.isDefault = false)
    {routes : List AddressEndpointMapping} (begins : specific <+: routes) :
    specific <+: defaultLast routes := by
  obtain ⟨rest, rfl⟩ := begins
  cases hfind : rest.find? fun aem => aem.address.isDefault with
  | none =>
      have hnone : ∀ aem ∈ specific ++ rest, aem.address.isDefault = false := fun aem hmem =>
        (List.mem_append.mp hmem).elim (hspecific aem) fun h => by
          simpa using List.find?_eq_none.mp hfind aem h
      rw [defaultLast_of_specific hnone]
      exact List.prefix_append ..
  | some first =>
      obtain ⟨hfirst, front, back, rfl, hfront⟩ := List.find?_eq_some_iff_append.mp hfind
      have hall : ∀ aem ∈ specific ++ front, aem.address.isDefault = false := fun aem hmem =>
        (List.mem_append.mp hmem).elim (hspecific aem) fun h => by simpa using hfront aem h
      rw [← List.append_assoc]
      cases back using List.reverseRecOn with
      | nil =>
          rw [defaultLast_of_last hall hfirst, List.append_assoc]
          exact List.prefix_append ..
      | append_singleton middle last =>
          rw [defaultLast_of_first hall hfirst, List.append_assoc]
          exact List.prefix_append ..

theorem prefix_iterate_defaultLast (hspecific : ∀ aem ∈ specific, aem.address.isDefault = false)
    {routes : List AddressEndpointMapping} (begins : specific <+: routes) (swaps : Nat) :
    specific <+: defaultLast^[swaps] routes := by
  induction swaps generalizing routes with
  | zero => exact begins
  | succ swaps ih => exact ih (prefix_defaultLast hspecific begins)

/-- Between two default routes one swap undoes the other. -/
theorem iterate_defaultLast_of_defaults
    (hspecific : ∀ aem ∈ specific, aem.address.isDefault = false)
    (hfirst : first.address.isDefault = true) (hlast : last.address.isDefault = true) (swaps : Nat) :
    defaultLast^[swaps] (specific ++ first :: (middle ++ [last])) =
        specific ++ first :: (middle ++ [last]) ↔ last = first ∨ swaps % 2 = 0 := by
  have htwice : defaultLast^[2] (specific ++ first :: (middle ++ [last])) =
      specific ++ first :: (middle ++ [last]) := by
    rw [Function.iterate_succ_apply, Function.iterate_one, defaultLast_of_first hspecific hfirst,
      defaultLast_of_first hspecific hlast]
  have hrest : defaultLast^[swaps] (specific ++ first :: (middle ++ [last])) =
      defaultLast^[swaps % 2] (specific ++ first :: (middle ++ [last])) := by
    conv_lhs => rw [← Nat.mod_add_div swaps 2, Function.iterate_add_apply, Function.iterate_mul,
      Function.iterate_fixed htwice]
  rw [hrest]
  rcases Nat.mod_two_eq_zero_or_one swaps with heven | hodd
  · simp [heven]
  · rw [hodd, Function.iterate_one, defaultLast_of_first hspecific hfirst]
    constructor
    · intro heq
      exact .inl (List.cons_eq_cons.mp (List.append_cancel_left heq)).1
    · rintro (rfl | heven)
      · rfl
      · cases heven

/-- A specific route that stands last changes places with the first default route, and stays there. -/
theorem iterate_defaultLast_of_specific
    (hspecific : ∀ aem ∈ specific, aem.address.isDefault = false)
    (hfirst : first.address.isDefault = true) (hlast : last.address.isDefault = false) (swaps : Nat) :
    defaultLast^[swaps] (specific ++ first :: (middle ++ [last])) =
        specific ++ first :: (middle ++ [last]) ↔ swaps = 0 := by
  cases swaps with
  | zero => simp
  | succ swaps =>
      refine iff_of_false (fun heq => ?_) (by simp)
      have hall : ∀ aem ∈ specific ++ [last], aem.address.isDefault = false := fun aem hmem =>
        (List.mem_append.mp hmem).elim (hspecific aem) fun h => List.mem_singleton.mp h ▸ hlast
      have hmoved : specific ++ [last] <+: specific ++ last :: (middle ++ [first]) :=
        ⟨middle ++ [first], by simp⟩
      have hkept := prefix_iterate_defaultLast hall hmoved swaps
      rw [Function.iterate_succ_apply, defaultLast_of_first hspecific hfirst] at heq
      rw [heq, List.prefix_append_right_inj, List.cons_prefix_cons] at hkept
      rw [hkept.1, hfirst] at hlast
      cases hlast

/-- What repeated swaps leave alone, for any table. -/
theorem iterate_defaultLast_eq_self_iff (routes : List AddressEndpointMapping) (swaps : Nat) :
    defaultLast^[swaps] routes = routes ↔ SwapsBack routes swaps := by
  unfold SwapsBack
  cases hfind : routes.find? fun aem => aem.address.isDefault with
  | none =>
      have hspecific : ∀ aem ∈ routes, aem.address.isDefault = false := fun aem hmem => by
        simpa using List.find?_eq_none.mp hfind aem hmem
      exact iff_of_true (Function.iterate_fixed (defaultLast_of_specific hspecific) _)
        (.inr (.inl nofun))
  | some first =>
      obtain ⟨hfirst, specific, back, rfl, hfront⟩ := List.find?_eq_some_iff_append.mp hfind
      have hspecific : ∀ aem ∈ specific, aem.address.isDefault = false := fun aem hmem => by
        simpa using hfront aem hmem
      cases back using List.reverseRecOn with
      | nil =>
          exact iff_of_true (Function.iterate_fixed (defaultLast_of_last hspecific hfirst) _)
            (.inr (.inl (by simp)))
      | append_singleton middle last =>
          have hgetLast : (specific ++ first :: (middle ++ [last])).getLast? = some last := by
            rw [← List.cons_append, ← List.append_assoc, List.getLast?_concat]
          simp only [hgetLast, Option.some.injEq, forall_eq', exists_eq_left']
          cases hlast : last.address.isDefault with
          | false =>
              have hother : last ≠ first := fun heq => by simp [heq, hfirst] at hlast
              simp [iterate_defaultLast_of_specific hspecific hfirst hlast, hother]
          | true =>
              rw [iterate_defaultLast_of_defaults hspecific hfirst hlast]
              constructor
              · exact fun h => .inr (h.imp id fun heven => ⟨rfl, heven⟩)
              · rintro (rfl | heq | ⟨-, heven⟩)
                · exact .inr rfl
                · exact .inl heq
                · exact .inr heven

/-- A pair that the table holds is announced again without a trace: the table is the same, so is every
    lookup, and so is the table after any list of such announcements. -/
def Idempotent (router : Router) (address : Route) (endpointId : EndpointId) : Prop :=
  router.insertRoute address endpointId = router ∧
    (∀ addressToLookup, (router.insertRoute address endpointId).lookup addressToLookup =
      router.lookup addressToLookup) ∧
    ∀ addresses, (∀ known ∈ addresses, ⟨known, endpointId⟩ ∈ router.routes) →
      router.insertRoutes addresses endpointId = router

theorem idempotent_iff {router : Router}
    (known : ⟨address, endpointId⟩ ∈ router.routes) :
    router.Idempotent address endpointId ↔ defaultLast router.routes = router.routes := by
  have hinsert : router.insertRoute address endpointId = ⟨defaultLast router.routes⟩ := by
    rw [Router.insertRoute, learn, if_pos known]
  constructor
  · intro h
    exact congrArg Router.routes (hinsert.symm.trans h.1)
  · intro hidle
    have hsame : router.insertRoute address endpointId = router := by
      rw [hinsert, hidle]
    exact ⟨hsame, fun _ => by rw [hsame], fun addresses hknown =>
      insertRoutes_eq_self_iff.mpr ⟨hknown, Function.iterate_fixed hidle _⟩⟩

/-! ### The order of a lookup -/

/-- A specific route of the endpoint reaches the address. -/
def ReachedBySpecific (router : Router) (addressToLookup : Ipv4Addr) (endpointId : EndpointId) :
    Prop :=
  ∃ aem ∈ router.routes, aem.address.isDefault = false ∧ aem.endpointId = endpointId ∧
    aem.address.reachableFrom addressToLookup = true

/-- A lookup starts with what the front of the table answers. -/
theorem lookup_append (specific defaults : List AddressEndpointMapping) (addressToLookup : Ipv4Addr) :
    (⟨specific⟩ : Router).lookup addressToLookup <+:
      (⟨specific ++ defaults⟩ : Router).lookup addressToLookup := by
  have hloop : ∀ (unread : List AddressEndpointMapping) (endpoints : List EndpointId),
      endpoints <+: unread.foldl (collectReachable addressToLookup) endpoints := by
    intro unread
    induction unread with
    | nil => exact fun endpoints => List.prefix_rfl
    | cons aem rest ih =>
        intro endpoints
        refine List.IsPrefix.trans ?_ (ih _)
        unfold collectReachable
        split
        · split
          · exact List.prefix_rfl
          · exact List.prefix_append ..
        · exact List.prefix_rfl
  rw [lookup, lookup, List.foldl_append]
  exact hloop defaults _

/-- Endpoints that a specific route reaches come first. -/
theorem pairwise_lookup (hspecific : ∀ aem ∈ specific, aem.address.isDefault = false)
    (hdefaults : ∀ aem ∈ defaults, aem.address.isDefault = true) (addressToLookup : Ipv4Addr) :
    ((⟨specific ++ defaults⟩ : Router).lookup addressToLookup).Pairwise fun first second =>
      ReachedBySpecific ⟨specific ++ defaults⟩ addressToLookup second →
        ReachedBySpecific ⟨specific ++ defaults⟩ addressToLookup first := by
  have hreached : ∀ endpointId,
      ReachedBySpecific ⟨specific ++ defaults⟩ addressToLookup endpointId ↔
        endpointId ∈ (⟨specific⟩ : Router).lookup addressToLookup := by
    intro endpointId
    rw [mem_lookup]
    constructor
    · rintro ⟨aem, hmem, hkind, hid, hreaches⟩
      rcases List.mem_append.mp hmem with hmem | hmem
      · exact ⟨aem, hmem, hid, hreaches⟩
      · rw [hdefaults aem hmem] at hkind
        cases hkind
    · rintro ⟨aem, hmem, hid, hreaches⟩
      exact ⟨aem, List.mem_append_left _ hmem, hspecific aem hmem, hid, hreaches⟩
  obtain ⟨others, hothers⟩ := lookup_append specific defaults addressToLookup
  have hnodup := nodup_lookup (⟨specific ++ defaults⟩ : Router) addressToLookup
  simp only [hreached]
  rw [← hothers] at hnodup ⊢
  refine List.pairwise_append.mpr ⟨?_, ?_, fun first hfirst second _ _ => hfirst⟩
  · exact List.Pairwise.imp_of_mem (fun hfirst _ _ _ => hfirst) hnodup.of_append_left
  · refine List.Pairwise.imp_of_mem (fun _ hsecond _ hfront => ?_) hnodup.of_append_right
    exact absurd hsecond (List.disjoint_of_nodup_append hnodup hfront)

end Router

/-- Default routes stay last. After any calls from a new router the table is a list of specific routes,
    each since an earlier announcement than the next, followed by default routes only; so in a lookup
    no endpoint that only a default route reaches comes before one that a specific route reaches. -/
theorem default_routes_stay_last (ops : List RouterOp) :
    (∃ specific defaults, (Router.after ops).routes = specific ++ defaults ∧
      (∀ aem ∈ specific, aem.address.isDefault = false) ∧
      (∀ aem ∈ defaults, aem.address.isDefault = true) ∧
      specific.Pairwise (Router.AnnouncedBefore ops)) ∧
    ∀ addressToLookup, ((Router.after ops).lookup addressToLookup).Pairwise fun first second =>
      (Router.after ops).ReachedBySpecific addressToLookup second →
        (Router.after ops).ReachedBySpecific addressToLookup first := by
  obtain ⟨specific, defaults, h⟩ := Router.ordered_after ops
  refine ⟨⟨specific, defaults, h.table, h.allSpecific, h.allDefault, h.ordered⟩,
    fun addressToLookup => ?_⟩
  have htable : Router.after ops = ⟨specific ++ defaults⟩ := congrArg Router.mk h.table
  rw [htable]
  exact Router.pairwise_lookup h.allSpecific h.allDefault addressToLookup

/-- Announcing a known route again changes nothing exactly while the table holds at most one default
    route. -/
theorem reannounce_idempotent_iff (ops : List RouterOp) (address : Route) (endpointId : EndpointId)
    (known : ⟨address, endpointId⟩ ∈ (Router.after ops).routes) :
    (Router.after ops).Idempotent address endpointId ↔
      (Router.after ops).routes.countP (fun aem => aem.address.isDefault) ≤ 1 := by
  obtain ⟨specific, defaults, h⟩ := Router.ordered_after ops
  have hnodup := Router.nodup_after ops
  have hcount : (specific ++ defaults).countP (fun aem => aem.address.isDefault) = defaults.length := by
    rw [List.countP_append, List.countP_eq_zero.mpr (by simpa using h.allSpecific), Nat.zero_add,
      List.countP_eq_length.mpr h.allDefault]
  rw [h.table] at hnodup
  rw [Router.idempotent_iff known, h.table, hcount]
  exact Router.defaultLast_eq_self_iff h.allSpecific h.allDefault hnodup

theorem reannounce_one_default :
    (Router.after [.insertRoute ⟨0, 0⟩ 1, .insertRoute ⟨3232235776, 4294967040⟩ 2]).Idempotent
        ⟨3232235776, 4294967040⟩ 2 ↔
      (Router.after [.insertRoute ⟨0, 0⟩ 1, .insertRoute ⟨3232235776, 4294967040⟩ 2]).routes.countP
        (fun aem => aem.address.isDefault) ≤ 1 :=
  reannounce_idempotent_iff _ _ _ (by decide)

/-- Two endpoints that both announce the default route change places whenever one of them announces it
    again. -/
theorem reannounce_exchanges_defaults :
    ¬ ∀ (ops : List RouterOp) (address : Route) (endpointId : EndpointId),
      ⟨address, endpointId⟩ ∈ (Router.after ops).routes →
        (Router.after ops).Idempotent address endpointId := by
  intro h
  have hsame := (h [.insertRoute ⟨0, 0⟩ 1, .insertRoute ⟨0, 0⟩ 2] ⟨0, 0⟩ 1 (by decide)).2.1 134744072
  exact absurd hsame (by decide)

end MultiConnect
