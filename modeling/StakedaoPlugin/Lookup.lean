import StakedaoPlugin.QueryContractUi

/-! The two table lookups as one refresh of the context, and the facts about the
tables that its users rely on. -/
namespace StakedaoPlugin
open CMemory

section Refresh
variable (context : StakedaoParameters) (destination : Address)

theorem copyAmount_address (dst src : Address) : copyAmount dst src = src :=
  arrayCopy_full dst src

theorem copy_ticker (dst src : Ticker) : arrayCopy dst src 0 maxStrategyTickerLen = src :=
  arrayCopy_full dst src

def strategyAt : Option StakedaoStrategy :=
  stakedaoStrategies.find? fun v => v.address == destination

def poolAt : Option StakedaoCrvPool :=
  curvePools.find? fun p => p.address == destination

/-- The context after the lookups, field by field: a pool overrides the names
of a strategy, and a field without a match keeps what it held. -/
theorem refresh_eq :
    refresh context destination =
      { context with
        address := destination
        decimals := ((strategyAt destination).map (·.decimals)).getD context.decimals
        strategy := ((strategyAt destination).map (·.strategy)).getD context.strategy
        want := ((poolAt destination).map (·.want)).getD
          (((strategyAt destination).map (·.want)).getD context.want)
        vault := ((poolAt destination).map (·.pool)).getD
          (((strategyAt destination).map (·.vault)).getD context.vault) } := by
  simp only [refresh, lookupStrategy, copyAmount_address, copy_ticker, strategyAt, poolAt]
  cases hs : stakedaoStrategies.find? (fun v => v.address == destination) <;>
    cases hp : curvePools.find? (fun p => p.address == destination) <;>
    simp [lookupPool, hp, copy_ticker]

theorem refresh_refresh :
    refresh (refresh context destination) destination = refresh context destination := by
  simp only [refresh_eq]
  cases strategyAt destination <;> cases poolAt destination <;> rfl

/-- What no query of any kind changes. -/
structure SameCall (c d : StakedaoParameters) : Prop where
  amount : d.amount = c.amount
  minAmount : d.minAmount = c.minAmount
  pid : d.pid = c.pid
  nextParam : d.nextParam = c.nextParam
  selectorIndex : d.selectorIndex = c.selectorIndex

theorem sameCall_refresh : SameCall context (refresh context destination) := by
  rw [refresh_eq]
  exact ⟨rfl, rfl, rfl, rfl, rfl⟩

theorem SameCall.trans {c d e : StakedaoParameters} (h : SameCall c d) (h' : SameCall d e) :
    SameCall c e where
  amount := h'.amount.trans h.amount
  minAmount := h'.minAmount.trans h.minAmount
  pid := h'.pid.trans h.pid
  nextParam := h'.nextParam.trans h.nextParam
  selectorIndex := h'.selectorIndex.trans h.selectorIndex

end Refresh

section Tables
variable {context : StakedaoParameters} {destination : Address}

theorem strategies_nodup : (stakedaoStrategies.map (·.address)).Nodup := by decide

theorem strategies_decimals : ∀ v ∈ stakedaoStrategies, v.decimals = 18 := by decide

/-- No address is in both tables. -/
theorem tables_disjoint :
    ∀ v ∈ stakedaoStrategies, ∀ p ∈ curvePools, p.address ≠ v.address := by decide

theorem strategyAt_eq_some {v : StakedaoStrategy} (h : strategyAt destination = some v) :
    v ∈ stakedaoStrategies ∧ v.address = destination :=
  ⟨List.mem_of_find?_eq_some h, by simpa using List.find?_some h⟩

theorem strategyAt_address {v : StakedaoStrategy} (h : v ∈ stakedaoStrategies) :
    strategyAt v.address = some v := by
  cases hf : strategyAt v.address with
  | none => simpa using List.find?_eq_none.mp hf v h
  | some w =>
    obtain ⟨hw, ha⟩ := strategyAt_eq_some hf
    rw [List.inj_on_of_nodup_map strategies_nodup hw h ha]

theorem poolAt_eq_some {p : StakedaoCrvPool} (h : poolAt destination = some p) :
    p ∈ curvePools ∧ p.address = destination :=
  ⟨List.mem_of_find?_eq_some h, by simpa using List.find?_some h⟩

theorem poolAt_of_strategyAt {v : StakedaoStrategy} (h : strategyAt destination = some v) :
    poolAt destination = none := by
  obtain ⟨hv, ha⟩ := strategyAt_eq_some h
  refine List.find?_eq_none.mpr ?_
  intro p hp
  simpa [← ha] using tables_disjoint v hv p hp

theorem decimals_refresh_le (context : StakedaoParameters) (destination : Address)
    (h : context.decimals.toNat ≤ 18) : (refresh context destination).decimals.toNat ≤ 18 := by
  rw [refresh_eq]
  cases hs : strategyAt destination with
  | none => exact h
  | some v =>
    have hv := strategies_decimals v (strategyAt_eq_some hs).1
    simp [hv]

end Tables
end StakedaoPlugin
