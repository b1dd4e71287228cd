import Wayfinder.Service.App
import Wayfinder.Service.Handlers.Bookkeeping
import Wayfinder.Service.Handlers.Holdings
import Wayfinder.Service.Handlers.Signing
import Wayfinder.Service.Handlers.Terms

/-! Runs of the app: what is known of the handlers' runs, for the world that the app leaves. -/
namespace Wayfinder.Service.App

open Js Handlers
open Tokens (TokenInstance)

variable {P : Primitives} {E : Env} {run run' : List Request}

theorem Fresh.handledIds (h : Fresh P E run) : E.FreshIds (after P E (handled P E run)).draws :=
  served_eq (P := P) (E := E) run ▸ h.ids

theorem Fresh.handledKeys (h : Fresh P E run) : E.FreshKeys P (after P E (handled P E run)).draws :=
  served_eq (P := P) (E := E) run ▸ h.keys

theorem served_later (h : run <+: run') :
    ∃ post, served P E run' = after P E (handled P E run ++ post) := by
  obtain ⟨more, rfl⟩ := h
  exact served_append run more

theorem sessions_served (hb : P.Base58) (h : Fresh P E run) : Sessions P E (handled P E run) :=
  sessions_after hb _ h.handledIds h.handledKeys

theorem recorded_served (h : Fresh P E run) : Recorded P E (served P E run) := by
  rw [served_eq]
  exact recorded_after _ h.handledIds

theorem indexed_served (h : Fresh P E run) : Tokens.Indexed (served P E run).tokens := by
  rw [served_eq]
  exact (holds_after _ h.handledIds).indexed

theorem stored_served (h : Fresh P E run) : Stored P E (handled P E run) :=
  stored_after _ h.handledIds

theorem keepsAccounts_served (hb : P.Base58) (h : run <+: run') (hfresh : Fresh P E run') :
    KeepsAccounts (served P E run).accounts (served P E run').accounts := by
  obtain ⟨post, hpost⟩ := served_later (P := P) (E := E) h
  rw [served_eq run, hpost]
  exact keepsAccounts_after hb _ post (hpost ▸ hfresh.ids) (hpost ▸ hfresh.keys)

theorem filed_served (hb : P.Base58) {token : Str} {account : Store.Account}
    (hfiled : Filed (served P E run).accounts token account) (h : run <+: run')
    (hfresh : Fresh P E run') :
    Filed (served P E run').accounts token account :=
  hfiled.kept (keepsAccounts_served hb h hfresh)

theorem token_served (h : run <+: run') (hfresh : Fresh P E run') {id : Str} {token : TokenInstance}
    (hget : (served P E run).tokens.byId.get id = some token) :
    ∃ token', (served P E run').tokens.byId.get id = some token' ∧
      termsOf token' = termsOf token := by
  obtain ⟨post, hpost⟩ := served_later (P := P) (E := E) h
  rw [served_eq] at hget
  rw [hpost]
  exact token_kept _ post (hpost ▸ hfresh.ids) hget

variable (P E) in
/-- An entry of the journal of a run. -/
def Logged (run : List Request) (entry : Ledger.Entry) : Prop :=
  ∃ journal, Kept P E journal (served P E run) ∧ entry ∈ journal

theorem Logged.later {entry : Ledger.Entry} (h : Logged P E run entry) (hrun : run <+: run')
    (hfresh : Fresh P E run') :
    Logged P E run' entry := by
  obtain ⟨journal, hkept, hentry⟩ := h
  obtain ⟨post, hpost⟩ := served_later (P := P) (E := E) hrun
  rw [served_eq] at hkept
  obtain ⟨more, hmore⟩ := kept_append hkept post (hpost ▸ hfresh.ids)
  exact ⟨journal ++ more, hpost ▸ hmore, List.mem_append_left _ hentry⟩

/-- An entry of the journal has a proof and a log. -/
theorem Logged.proof {entry : Ledger.Entry} (h : Logged P E run entry) :
    ∃ proof, Ledger.getProof P (served P E run).ledger entry.tx.txId = some proof := by
  obtain ⟨journal, hkept, hentry⟩ := h
  have hmem : Ledger.leafOf P entry.tx ∈
      (served P E run).ledger.leaves.filter (·.txId = entry.tx.txId) := by
    rw [hkept.books.filter_leaves hentry]
    exact List.mem_singleton_self _
  unfold Ledger.getProof
  split
  · next hnone =>
    rw [List.findIdx?_eq_none_iff] at hnone
    have hnot := hnone _ (List.mem_of_mem_filter hmem)
    simp [Ledger.leafOf] at hnot
  · exact ⟨_, rfl⟩

theorem Logged.log {entry : Ledger.Entry} (h : Logged P E run entry) :
    (served P E run).ledger.txLogs.get entry.tx.txId = some entry.log := by
  obtain ⟨journal, hkept, hentry⟩ := h
  exact hkept.books.getLog_iff.mpr ⟨entry, hentry, rfl, rfl⟩

/-- The class of the page is there from the start. -/
theorem propDeed_served (run : List Request) :
    (served P E run).tokenclasses.get (lit "PROP-DEED") = some (TokenClasses.propDeed P E) := by
  rw [served_eq]
  exact class_kept [] _ (seed_propDeed P E)

end Wayfinder.Service.App
