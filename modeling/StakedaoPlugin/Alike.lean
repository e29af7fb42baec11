import StakedaoPlugin.DisplayedAmount
import StakedaoPlugin.Presentation

/-! Contexts that no screen tells apart: what a screen reads are the names, the
decimals, and the amount or the identifier of the operation. -/
namespace StakedaoPlugin
open CMemory

section Alike
variable {s : StakedaoSelector} {c d : StakedaoParameters}

/-- Contexts of one operation that differ only in slots no screen shows. -/
structure Alike (s : StakedaoSelector) (c d : StakedaoParameters) : Prop where
  untouched : untouched c = untouched d
  selectorIndex : c.selectorIndex = s.toIndex
  vault : 0 ∈ c.vault.toList
  amount : ShowsAmount s → c.amount = d.amount
  pid : ShowsPid s → c.pid = d.pid

theorem read_of_untouched (h : untouched c = untouched d) (f : NameField) :
    f.read c = f.read d := by
  simp only [untouched, Prod.mk.injEq] at h
  cases f with
  | strategy => exact h.1
  | want => exact h.2.1
  | vault => exact h.2.2.1

theorem decimals_of_untouched (h : untouched c = untouched d) : c.decimals = d.decimals :=
  congrArg (fun t => t.2.2.2.1) h

theorem untouched_refresh (h : untouched c = untouched d) (destination : Address) :
    untouched (refresh c destination) = untouched (refresh d destination) := by
  simp only [untouched, Prod.mk.injEq] at h
  simp only [untouched, refresh_eq, h]

theorem alike_refresh (h : Alike s c d) (destination : Address) :
    Alike s (refresh c destination) (refresh d destination) where
  untouched := untouched_refresh h.untouched destination
  selectorIndex := (sameCall_refresh c destination).selectorIndex.trans h.selectorIndex
  vault := by
    have hr := NameField.read_refresh .vault c destination
    rw [NameField.read] at hr
    rw [hr]
    cases hn : NameField.vault.entryName destination with
    | none => exact h.vault
    | some name => exact vault_names_terminated hn
  amount hs := by
    rw [(sameCall_refresh c destination).amount, (sameCall_refresh d destination).amount]
    exact h.amount hs
  pid hs := by
    rw [(sameCall_refresh c destination).pid, (sameCall_refresh d destination).pid]
    exact h.pid hs

theorem selectorIndex_right (h : Alike s c d) : d.selectorIndex = s.toIndex :=
  (congrArg (fun t => t.2.2.2.2) h.untouched).symm.trans h.selectorIndex

theorem alike_sameIn (h : Alike s c d) (haddress : c.address = d.address) :
    ∀ screen ∈ screens s, screen.content.SameIn c d := by
  intro screen hmem
  obtain ⟨hamountIn, hamount⟩ := screens_amount s screen hmem
  have hname := read_of_untouched h.untouched
  cases hcontent : screen.content with
  | text x => trivial
  | name f => exact cstr_readFrom_congr hname h.vault f
  | amountIn f =>
    exact ⟨h.amount (hamountIn f hcontent).2, decimals_of_untouched h.untouched, hname f⟩
  | amount ticker => exact h.amount (hamount ticker hcontent)
  | value ticker => trivial
  | identifier => exact h.pid (screens_identifier s screen hmem hcontent)
  | contract => exact haddress

/-- No screen tells them apart. -/
theorem alike_shown (sdk : Sdk) (h : Alike s c d) (ui : EthQueryContractUI) :
    shown (handleQueryContractUi sdk ui c) = shown (handleQueryContractUi sdk ui d) := by
  have hr := alike_refresh h ui.txContent.destination
  have haddr : (refresh c ui.txContent.destination).address =
      (refresh d ui.txContent.destination).address := by
    simp only [refresh_eq]
  have hscreen := showScreen_congr sdk (cleared ui) hr.selectorIndex (selectorIndex_right hr) rfl
    (alike_sameIn hr haddr)
  rw [handleQueryContractUi_eq, handleQueryContractUi_eq, shown_map, shown_map, hscreen]

end Alike

end StakedaoPlugin
