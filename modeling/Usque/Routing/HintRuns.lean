/-
  Runs of the table of DNS route hints.
-/
import Usque.Core.Plain
import Usque.Routing.Hints

namespace Usque.Routing
open Lib Usque.Core HashMap List

/-! ## Deadlines -/

inductive Slot where
  | direct
  | tunnel
  | explicitProxy
  | explicitDirect

def Slot.route : Slot → GeoRoute
  | .direct | .explicitDirect => .direct
  | .tunnel | .explicitProxy => .tunnel

def HintState.deadline (hint : HintState) : Slot → Option ℕ
  | .direct => hint.directUntil
  | .tunnel => hint.tunnelUntil
  | .explicitProxy => hint.explicitProxyUntil
  | .explicitDirect => hint.explicitDirectUntil

/-- The deadlines that an answer extends. -/
def marks (route : QueryRoute) (direct proxy : Bool) : Slot → Bool
  | .direct => route = .direct
  | .tunnel => route = .tunnel
  | .explicitProxy => proxy
  | .explicitDirect => direct

theorem HintState.deadline_observe (hint : HintState) (route : QueryRoute) (direct proxy : Bool)
    (time now : ℕ) (slot : Slot) :
    (hint.observe route direct proxy time now).deadline slot =
      if marks route direct proxy slot then extend (hint.deadline slot) time
      else hint.deadline slot := by
  cases slot <;> cases route <;> cases direct <;> cases proxy <;> rfl

variable {deadline : Option ℕ}

theorem extend_eq_some {time new : ℕ} (h : extend deadline time = some new) :
    new = time ∨ deadline = some new := by
  cases deadline with
  | none =>
    cases h
    exact .inl rfl
  | some old =>
    cases h
    rcases le_total old time with hle | hle
    · exact .inl (max_eq_right hle)
    · exact .inr (by rw [max_eq_left hle])

/-! ## Grounded hints -/

def Grounded (P : IpAddr → Slot → ℕ → Prop) (hints : HashMap IpAddr HintState) : Prop :=
  ∀ ip hint slot time, hints.lookup ip = some hint → hint.deadline slot = some time → P ip slot time

section
variable {P P' : IpAddr → Slot → ℕ → Prop} {hints hints' : HashMap IpAddr HintState}

theorem Grounded.empty : Grounded P ∅ := by
  intro ip hint slot time h
  simp at h

theorem Grounded.sub (h : Grounded P hints) (hsub : Sub hints' hints) : Grounded P hints' :=
  fun ip hint slot time hlook => h ip hint slot time (hsub ip hint hlook)

theorem Grounded.mono (h : Grounded P hints) (himp : ∀ ip slot time, P ip slot time → P' ip slot time) :
    Grounded P' hints :=
  fun ip hint slot time hlook hdead =>
    himp ip slot time (h ip hint slot time hlook hdead)

theorem evictOldest_sub (order : Iteration IpAddr HintState) (ip : IpAddr) :
    Sub (evictOldest order hints ip) hints := by
  unfold evictOldest
  split_ifs with hfull
  · split
    · exact Sub.erase _ _
    · exact Sub.refl _
  · exact Sub.refl _

theorem evictOldest_room (order : Iteration IpAddr HintState) (ip : IpAddr) (new : HintState)
    (hlen : hints.len ≤ MAX_HINTS) :
    len ((evictOldest order hints ip).insert ip new) ≤ MAX_HINTS := by
  unfold evictOldest
  split_ifs with hfull
  · generalize holdest : (order.iter hints).argmin (fun entry => entry.2.lastSeen) = oldest
    cases oldest with
    | none =>
      -- a table without entries is not full
      have hnil := argmin_eq_none.1 holdest
      obtain ⟨k, hk⟩ : hints.keys.Nonempty := by
        refine Finset.card_pos.1 ?_
        have hpos : 0 < MAX_HINTS := by decide
        exact lt_of_lt_of_le hpos hfull.1
      rw [Finmap.mem_keys, ← Finmap.lookup_isSome, Option.isSome_iff_exists] at hk
      obtain ⟨v, hv⟩ := hk
      have hmem := (order.mem_iter hints k v).2 hv
      rw [hnil] at hmem
      cases hmem
    | some entry =>
      obtain ⟨k, v⟩ := entry
      have hmem := (order.mem_iter hints k v).1 (argmin_mem holdest)
      have hless := len_erase_of_mem (Finmap.mem_of_lookup_eq_some hmem)
      have hinsert := len_insert_le (hints.erase k) ip new
      dsimp only
      omega
  · rcases hlook : hints.lookup ip with _ | old
    · have hroom : hints.len < MAX_HINTS := by
        by_contra hno
        exact hfull ⟨not_lt.1 hno, hlook⟩
      have hinsert := len_insert_le hints ip new
      omega
    · rw [len_insert_mem _ _ (Finmap.mem_of_lookup_eq_some hlook)]
      exact hlen

variable {order : Iteration IpAddr HintState} {route : QueryRoute} {direct proxy : Bool} {now : ℕ}

theorem observeRecord_grounded {record : IpAddr × ℕ} (h : Grounded P hints)
    (hnew : 0 < record.2 → ∀ slot, marks route direct proxy slot →
      P record.1 slot (now + min (record.2 * SECOND) MAX_HINT_TTL)) :
    Grounded P (observeRecord order route direct proxy now hints record) := by
  unfold observeRecord
  split_ifs with hzero
  · exact h
  · have hevicted := h.sub (evictOldest_sub order record.1)
    intro ip hint slot time hlook hdeadline
    rw [lookup_insert_eq] at hlook
    split_ifs at hlook with hip
    · cases hlook
      rw [HintState.deadline_observe] at hdeadline
      -- the deadline is the one of the record, or that of the hint before
      have hold : ((((evictOldest order hints record.1).lookup record.1).getD
          (.unseen now)).deadline slot = some time) → P ip slot time := by
        intro hdead
        rcases hbef : (evictOldest order hints record.1).lookup record.1 with _ | before
        · rw [hbef] at hdead
          cases slot <;> cases hdead
        · rw [hbef] at hdead
          rw [hip]
          exact hevicted _ before slot time hbef hdead
      split_ifs at hdeadline with hmark
      · rcases extend_eq_some hdeadline with rfl | hdead
        · rw [hip]
          exact hnew (Nat.pos_of_ne_zero hzero) slot hmark
        · exact hold hdead
      · exact hold hdeadline
    · exact hevicted ip hint slot time hlook hdeadline

theorem observeRecord_len (record : IpAddr × ℕ) (hlen : hints.len ≤ MAX_HINTS) :
    (observeRecord order route direct proxy now hints record).len ≤ MAX_HINTS := by
  unfold observeRecord
  split_ifs with hzero
  · exact hlen
  · exact evictOldest_room order record.1 _ hlen

theorem observeRecords_fold (order : Iteration IpAddr HintState) {records : List (IpAddr × ℕ)}
    (h : Grounded P hints) (hlen : hints.len ≤ MAX_HINTS)
    (hnew : ∀ record ∈ records, 0 < record.2 → ∀ slot, marks route direct proxy slot →
      P record.1 slot (now + min (record.2 * SECOND) MAX_HINT_TTL)) :
    Grounded P (records.foldl (observeRecord order route direct proxy now) hints) ∧
      (records.foldl (observeRecord order route direct proxy now) hints).len ≤ MAX_HINTS := by
  induction records generalizing hints with
  | nil => exact ⟨h, hlen⟩
  | cons record _ ih =>
    exact ih (observeRecord_grounded h (hnew record (mem_cons_self ..)))
      (observeRecord_len record hlen) fun r hr => hnew r (mem_cons_of_mem _ hr)

end

/-! ## The order of the tables of a run -/

/-- A network generation that is not before another one. -/
def notBefore : Option ℕ → Option ℕ → Prop
  | none, _ => True
  | some _, none => False
  | some previous, some next => previous ≤ next

theorem notBefore_refl : ∀ generation, notBefore generation generation
  | none => trivial
  | some _ => le_rfl

theorem notBefore_trans {a b c : Option ℕ} (hab : notBefore a b) (hbc : notBefore b c) :
    notBefore a c := by
  cases a with
  | none => trivial
  | some =>
    cases b with
    | none => cases hab
    | some =>
      cases c with
      | none => cases hbc
      | some => exact le_trans hab hbc

/-- Neither the generation nor the revision of the table has gone back. -/
def Forward (table table' : HintTable) : Prop :=
  notBefore table.generation table'.generation ∧ table.routingRevision ≤ table'.routingRevision

theorem Forward.refl (table : HintTable) : Forward table table := ⟨notBefore_refl _, le_rfl⟩

theorem Forward.trans {a b c : HintTable} (h : Forward a b) (h' : Forward b c) : Forward a c :=
  ⟨notBefore_trans h.1 h'.1, h.2.trans h'.2⟩

/-- What a call that uses the table finds: the table of its generation and revision,
    without hints if it had another one before. -/
structure Synced (table : HintTable) (generation : Option ℕ) (revision : ℕ)
    (table' : HintTable) : Prop where
  generation_eq : table'.generation = generation
  revision_eq : table'.routingRevision = revision
  forward : Forward table table'
  hints : table'.hints = ∅ ∨ table'.hints = table.hints ∧ table.generation = generation ∧
    table.routingRevision = revision

theorem syncGeneration_spec (table : HintTable) (generation : Option ℕ) (revision now : ℕ) :
    syncGeneration table generation revision now = (table, false) ∨
      ∃ table', syncGeneration table generation revision now = (table', true) ∧
        Synced table generation revision table' := by
  unfold syncGeneration
  extract_lets older
  split_ifs with hrefuse hchg
  · exact .inl rfl
  · refine .inr ⟨_, rfl, rfl, rfl, ⟨?_, ?_⟩, .inl rfl⟩
    · rcases hprev : table.generation with _ | previous
      · trivial
      · rcases hnext : generation with _ | next
        · simp [hprev, hnext] at hrefuse
        · simp only [older, hprev, hnext] at hrefuse
          simp only [decide_eq_true_eq] at hrefuse
          exact not_lt.1 fun hless => hrefuse (.inr (.inl hless))
    · exact not_lt.1 fun hless => hrefuse (.inl hless)
  · simp only [not_or, not_not] at hchg
    exact .inr ⟨table, rfl, hchg.1, hchg.2, .refl table, .inr ⟨rfl, hchg⟩⟩

theorem pruneHintsIfNeeded_spec (table : HintTable) (now : ℕ) (force : Bool) :
    (pruneHintsIfNeeded table now force).generation = table.generation ∧
      (pruneHintsIfNeeded table now force).routingRevision = table.routingRevision ∧
      Sub (pruneHintsIfNeeded table now force).hints table.hints ∧
      (pruneHintsIfNeeded table now force).hints.len ≤ table.hints.len := by
  unfold pruneHintsIfNeeded
  split_ifs with hskip
  · exact ⟨rfl, rfl, Sub.refl _, le_rfl⟩
  · exact ⟨rfl, rfl, Sub.retain _ _, len_retain_le _ _⟩

/-! ## The invariant -/

variable {ip : IpAddr} {policy : GeoDirectPolicy} {generation : Option ℕ} {runtimes : Runtimes}
  {revision : ℕ} {view : View}

namespace HintTable
variable {text : Text} {table table' : HintTable} {h : List (Event HintTable Call Answer)}

/-- An observation of the run that set a deadline of an address: an answer with a
    record of the address, accepted under the generation and the revision. -/
def Observed (text : Text) (h : List (Event HintTable Call Answer)) (generation : Option ℕ)
    (revision : ℕ) (ip : IpAddr) (slot : Slot) (time : ℕ) : Prop :=
  ∃ e ∈ h, ∃ (view : View) (order : Iteration IpAddr HintState) (records : List (IpAddr × ℕ))
    (questions : List Str) (route : QueryRoute) (ttl : ℕ),
    e.input = .observePolicy view order (some records) questions route ∧
    e.output = .observed true ∧
    view.generation = generation ∧ view.published = revision ∧
    (ip, ttl) ∈ records ∧ 0 < ttl ∧
    marks route
      (questions.any fun name => view.frozen.customHost text view.runtimes name == some .direct)
      (questions.any fun name => view.frozen.customHost text view.runtimes name == some .tunnel)
      slot = true ∧
    time = view.now + min (ttl * SECOND) MAX_HINT_TTL

structure Inv (text : Text) (h : List (Event HintTable Call Answer)) (table : HintTable) :
    Prop where
  grounded : Grounded (Observed text h table.generation table.routingRevision) table.hints
  len_le : table.hints.len ≤ MAX_HINTS

theorem Inv.cons (hinv : Inv text h table) (e : Event HintTable Call Answer) :
    Inv text (e :: h) table := by
  refine ⟨hinv.grounded.mono ?_, hinv.len_le⟩
  exact fun ip slot time hobs => exists_mem_cons_of_exists hobs

theorem Inv.sync (hinv : Inv text h table) (hsync : Synced table generation revision table') :
    Inv text h table' := by
  rcases hsync.hints with hempty | ⟨hsame, hgen, hrev⟩
  · constructor
    · rw [hempty]
      exact .empty
    · rw [hempty]
      exact Nat.zero_le _
  · have hgrounded := hinv.grounded
    rw [hgen, hrev] at hgrounded
    constructor
    · rw [hsame, hsync.generation_eq, hsync.revision_eq]
      exact hgrounded
    · rw [hsame]
      exact hinv.len_le

theorem Inv.prune (hinv : Inv text h table) (now : ℕ) (force : Bool) :
    Inv text h (pruneHintsIfNeeded table now force) := by
  obtain ⟨hgen, hrev, hsub, hlen⟩ := pruneHintsIfNeeded_spec table now force
  constructor
  · rw [hgen, hrev]
    exact hinv.grounded.sub hsub
  · exact hlen.trans hinv.len_le

theorem frozen_current {α : Type} {a b : α}
    (h : view.frozen.withCurrentRouting view.runtimes (view.frozen.routingRevision view.runtimes) a
      = some b) :
    view.frozen.routingRevision view.runtimes = view.published ∧ a = b := by
  unfold GeoDirectPolicy.withCurrentRouting LiveRouting.withCurrent at h
  split_ifs at h with hcur
  cases h
  exact ⟨hcur.symm, rfl⟩

/-- A lookup asks the policy alone, or the table of its generation and of the
    published revision. -/
theorem routeIp_spec (table : HintTable) (view : View) (ip : IpAddr) :
    Routing.routeIp table view ip = (table, .byPolicy (view.frozen.routeIp view.runtimes ip)) ∨
      ∃ table', Synced table view.generation view.published table' ∧
        Routing.routeIp table view ip = (pruneHintsIfNeeded table' view.now false,
          (pruneHintsIfNeeded table' view.now false).decide ip view.frozen view.runtimes
            view.now) := by
  unfold Routing.routeIp
  extract_lets policy
  generalize hcur : policy.withCurrentRouting view.runtimes
    (policy.routingRevision view.runtimes)
    (routeIpCurrent table ip view.generation policy view.runtimes view.now) = result
  cases result with
  | none => exact .inl rfl
  | some =>
    obtain ⟨hrev, rfl⟩ := frozen_current hcur
    rw [routeIpCurrent, hrev]
    rcases syncGeneration_spec table view.generation view.published view.now with
      hrefuse | ⟨table', hsync, hsynced⟩
    · rw [hrefuse]
      exact .inl rfl
    · rw [hsync]
      exact .inr ⟨table', hsynced, rfl⟩

/-- An observation changes nothing, or writes its records into the table of its
    generation and of the published revision. -/
theorem observePolicy_spec (text : Text) (table : HintTable) (view : View)
    (order : Iteration IpAddr HintState) (records : Option (List (IpAddr × ℕ)))
    (questions : List Str) (route : QueryRoute) :
    observePolicy text table view order records questions route = (table, false) ∨
      ∃ known table', records = some known ∧
        Synced table view.generation view.published table' ∧
        observePolicy text table view order records questions route =
          ({ pruneHintsIfNeeded table' view.now (MAX_HINTS ≤ table'.hints.len) with
              hints := known.foldl
                (observeRecord order route
                  (questions.any fun name =>
                    view.frozen.customHost text view.runtimes name == some .direct)
                  (questions.any fun name =>
                    view.frozen.customHost text view.runtimes name == some .tunnel) view.now)
                (pruneHintsIfNeeded table' view.now (MAX_HINTS ≤ table'.hints.len)).hints },
            true) := by
  cases records with
  | none => exact .inl rfl
  | some known =>
    simp only [observePolicy]
    generalize hcur : view.frozen.withCurrentRouting view.runtimes
      (view.frozen.routingRevision view.runtimes) _ = result
    cases result with
    | none => exact .inl rfl
    | some =>
      obtain ⟨hrev, rfl⟩ := frozen_current hcur
      rw [observeRecords, hrev]
      rcases syncGeneration_spec table view.generation view.published view.now with
        hrefuse | ⟨table', hsync, hsynced⟩
      · rw [hrefuse]
        exact .inl rfl
      · rw [hsync]
        exact .inr ⟨known, table', rfl, hsynced, rfl⟩

theorem Forward.of_prune (hsync : Synced table generation revision table') (now : ℕ) (force : Bool) :
    Forward table (pruneHintsIfNeeded table' now force) := by
  obtain ⟨hgen, hrev, -⟩ := pruneHintsIfNeeded_spec table' now force
  refine hsync.forward.trans ⟨?_, ?_⟩
  · rw [hgen]
    exact notBefore_refl _
  · rw [hrev]

theorem next_forward (call : Call) : Forward table (next text table call).1 := by
  cases call with
  | observePolicy view order records questions route =>
    simp only [next]
    rcases observePolicy_spec text table view order records questions route with
      hrefuse | ⟨known, table', -, hsync, heq⟩
    · rw [hrefuse]
      exact .refl table
    · rw [heq]
      exact Forward.of_prune hsync view.now _
  | routeIp view ip =>
    simp only [next]
    rcases routeIp_spec table view ip with hpol | ⟨table', hsync, heq⟩
    · rw [hpol]
      exact .refl table
    · rw [heq]
      exact Forward.of_prune hsync view.now false

theorem Inv.next (hinv : Inv text h table) (call : Call) :
    Inv text (⟨table, call, (next text table call).2⟩ :: h) (HintTable.next text table call).1 := by
  cases call with
  | routeIp view ip =>
    refine Inv.cons ?_ _
    simp only [HintTable.next]
    rcases routeIp_spec table view ip with hpol | ⟨table', hsync, heq⟩
    · rw [hpol]
      exact hinv
    · rw [heq]
      exact (hinv.sync hsync).prune view.now false
  | observePolicy view order records questions route =>
    rcases observePolicy_spec text table view order records questions route with
      hrefuse | ⟨known, table', rfl, hsync, heq⟩
    · refine Inv.cons ?_ _
      simp only [HintTable.next]
      rw [hrefuse]
      exact hinv
    · have hprune := ((hinv.sync hsync).prune view.now (MAX_HINTS ≤ table'.hints.len)).cons
        ⟨table, .observePolicy view order (some known) questions route, .observed true⟩
      obtain ⟨hgen, hrev, -⟩ :=
        pruneHintsIfNeeded_spec table' view.now (MAX_HINTS ≤ table'.hints.len)
      simp only [HintTable.next]
      rw [heq]
      have hnew : ∀ record ∈ known, 0 < record.2 → ∀ slot, marks route
          (questions.any fun name => view.frozen.customHost text view.runtimes name == some .direct)
          (questions.any fun name => view.frozen.customHost text view.runtimes name == some .tunnel)
          slot →
          Observed text (⟨table, .observePolicy view order (some known) questions route,
            .observed true⟩ :: h)
            (pruneHintsIfNeeded table' view.now (MAX_HINTS ≤ table'.hints.len)).generation
            (pruneHintsIfNeeded table' view.now (MAX_HINTS ≤ table'.hints.len)).routingRevision
            record.1 slot (view.now + min (record.2 * SECOND) MAX_HINT_TTL) := by
        rintro ⟨ip, ttl⟩ hrec hpos slot hmark
        refine ⟨_, mem_cons_self .., view, order, known, questions, route, ttl, rfl, rfl, ?_, ?_,
          hrec, hpos, hmark, rfl⟩
        · rw [hgen, hsync.generation_eq]
        · rw [hrev, hsync.revision_eq]
      obtain ⟨hgrounded, hlen⟩ :=
        observeRecords_fold order hprune.grounded hprune.len_le hnew
      exact ⟨hgrounded, hlen⟩

/-! ## Decisions -/

variable {now : ℕ}

theorem holds_iff : holds deadline now ↔ ∃ time, deadline = some time ∧ now < time := by
  cases deadline <;> simp [holds]

/-- A decision by a hint rests on a deadline of the address that has not passed. -/
theorem decide_byHint {route : GeoRoute}
    (hdecide : table.decide ip policy runtimes now = .byHint route) :
    ∃ hint slot time, table.hints.lookup ip = some hint ∧ hint.deadline slot = some time ∧
      now < time ∧ slot.route = route := by
  have found : ∀ {p : HintState → Bool} (slot : Slot), (table.hints.lookup ip).any p →
      (∀ hint, p hint → holds (hint.deadline slot) now) → slot.route = route →
      ∃ hint slot time, table.hints.lookup ip = some hint ∧ hint.deadline slot = some time ∧
        now < time ∧ slot.route = route := by
    intro p slot hany hp hroute
    rcases hlook : table.hints.lookup ip with _ | hint
    · rw [hlook] at hany
      cases hany
    · rw [hlook] at hany
      obtain ⟨time, htime, hless⟩ := holds_iff.1 (hp hint hany)
      exact ⟨hint, slot, time, rfl, htime, hless, hroute⟩
  simp only [HintTable.decide] at hdecide
  generalize policy.customIp runtimes ip = custom at hdecide
  cases custom with
  | some =>
    split_ifs at hdecide with hrej hproxy hdirect
    · cases hdecide
      exact found .explicitProxy hproxy (fun _ hp => hp) rfl
    · cases hdecide
      exact found .explicitDirect hdirect (fun _ hp => hp) rfl
  | none =>
    split_ifs at hdecide with hrej hproxy hdirect hboth honly
    · cases hdecide
      exact found .explicitProxy hproxy (fun _ hp => hp) rfl
    · cases hdecide
      exact found .explicitDirect hdirect (fun _ hp => hp) rfl
    · cases hdecide
      exact found .tunnel hboth (fun _ hp => ((Bool.and_eq_true _ _).mp hp).2) rfl
    · cases hdecide
      exact found .direct honly (fun _ hp => ((Bool.and_eq_true _ _).mp hp).1) rfl

theorem routeIp_of_rejects (hrej : policy.rejectsIp runtimes ip) :
    policy.routeIp runtimes ip = .reject := by
  have hcustom : policy.customIp runtimes ip.toCanonical = policy.customIp runtimes ip := by
    simp only [GeoDirectPolicy.customIp, IpAddr.toCanonical_toCanonical]
  simp only [GeoDirectPolicy.rejectsIp, beq_iff_eq] at hrej
  simp only [GeoDirectPolicy.routeIp, hcustom, hrej]

theorem routeIp_reject (hrej : view.frozen.rejectsIp view.runtimes ip) :
    (Routing.routeIp table view ip).2.route = .reject := by
  rcases routeIp_spec table view ip with hpol | ⟨table', -, heq⟩
  · rw [hpol]
    exact routeIp_of_rejects hrej
  · rw [heq]
    simp only [HintTable.decide, hrej, if_true, Decision.route]

/-- **DNS route hints are never stale.** After any calls on a new table:
    * a route that is derived from a hint rests on an observation of the address for
      that route, accepted under the generation and the published revision of the
      lookup, whose capped time to live has not passed;
    * the generation and the revision of the table never go back;
    * the table holds at most `MAX_HINTS` addresses;
    * an address that the policy of the call rejects is routed to `reject`, by a
      lookup and for a resolved name. -/
theorem dns_route_hints_never_stale (text : Text) (created : ℕ) {table : HintTable}
    {h : List (Event HintTable Call Answer)}
    (run : Steps (next text) (HintTable.default created) h table) :
    (∀ (view : View) (ip : IpAddr) (route : GeoRoute),
      (next text table (.routeIp view ip)).2 = .routed (.byHint route) →
      ∃ slot time, slot.route = route ∧
        Observed text h view.generation view.published ip slot time ∧ view.now < time) ∧
    (∀ (h' : List (Event HintTable Call Answer)) (table' : HintTable),
      Steps (next text) table h' table' → Forward table table') ∧
    table.hints.len ≤ MAX_HINTS ∧
    (∀ (view : View) (ip : IpAddr), view.policy.rejectsIp view.captured ip = true →
      (∃ decision, (next text table (.routeIp view ip)).2 = .routed decision ∧
        decision.route = .reject) ∧
      ∀ ads host, view.policy.resolvedRoute text view.captured ads host ip = .reject) := by
  have hinv : Inv text h table :=
    run.inv ⟨.empty, Nat.zero_le _⟩ fun _ _ call _ ih => ih.next call
  refine ⟨?_, ?_, hinv.len_le, ?_⟩
  · intro view ip route hroute
    simp only [next, Answer.routed.injEq] at hroute
    rcases routeIp_spec table view ip with hpolicy | ⟨table', hsync, heq⟩
    · rw [hpolicy] at hroute
      cases hroute
    · rw [heq] at hroute
      obtain ⟨hint, slot, time, hlookup, hdeadline, hless, hslot⟩ := decide_byHint hroute
      have hpruned := (hinv.sync hsync).prune view.now false
      obtain ⟨hgeneration, hrevision, -⟩ := pruneHintsIfNeeded_spec table' view.now false
      have hobserved := hpruned.grounded ip hint slot time hlookup hdeadline
      rw [hgeneration, hrevision, hsync.generation_eq, hsync.revision_eq] at hobserved
      exact ⟨slot, time, hslot, hobserved, hless⟩
  · intro h' table' run'
    exact run'.inv (P := fun _ t => Forward table t) (.refl table)
      fun _ _ call _ ih => ih.trans (next_forward call)
  · intro view ip hreject
    -- the frozen policy of the call looks addresses up in what it captured
    have hfrozen : view.frozen.rejectsIp view.runtimes ip = true := hreject
    refine ⟨⟨_, rfl, routeIp_reject hfrozen⟩, fun ads host => ?_⟩
    have hresolved : (view.policy.freezeRouting view.captured).rejectsIp view.captured ip = true :=
      hreject
    simp only [GeoDirectPolicy.resolvedRoute, hresolved, if_true]

/-- A policy without rules, in the first generation of the network. -/
def sampleView (now : ℕ) : View where
  policy := .disabled 0
  captured := fun _ => ⟨⟨0, ⟨1, ⟨[], false⟩, [], []⟩⟩⟩
  runtimes := fun _ => ⟨⟨0, ⟨1, ⟨[], false⟩, [], []⟩⟩⟩
  generation := some 1
  now := now

/-- An answer around the tunnel with one address. -/
def sampleCall (order : Iteration IpAddr HintState) : Call :=
  .observePolicy (sampleView 0) order (some [(.v4 7, 60)]) [] .direct

theorem sampleCall_decision (order : Iteration IpAddr HintState) :
    (next plainText (next plainText (HintTable.default 0) (sampleCall order)).1
      (.routeIp (sampleView 1) (.v4 7))).2 = .routed (.byHint .direct) := rfl

theorem dns_route_hints_sample :
    ∃ (h : List (Event HintTable Call Answer)) (slot : Slot) (time : ℕ), slot.route = .direct ∧
      Observed plainText h (some 1) 1 (.v4 7) slot time ∧ 1 < time := by
  obtain ⟨order⟩ := Iteration.nonempty IpAddr HintState
  have run : Steps (next plainText) (HintTable.default 0) _ _ := Steps.nil.snoc (sampleCall order)
  obtain ⟨hhint, -⟩ := dns_route_hints_never_stale plainText 0 run
  exact ⟨_, hhint (sampleView 1) (.v4 7) .direct (sampleCall_decision order)⟩

end HintTable

end Usque.Routing
