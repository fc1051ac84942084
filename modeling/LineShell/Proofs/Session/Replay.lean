import LineShell.Proofs.Display
import LineShell.Proofs.Session.Path

/-!
# Replaying the journal of the store

A record of the store names what was written and shows the value. That is enough to write it again:
the display of a value is read back as the value, in the type that the variable has by then. So
every step of a path can be replayed from its record alone (`Step.replay_eq`), and a path from its
records of the store (`Path.replay_eq`).

Main statement: the records of the store that any lines leave behind, replayed on the empty store,
all succeed and build the store of the session (`replay_journal`).
-/

namespace LineShell

/-- Does again what a record of the store says was done. -/
def Record.replay (s : Store) : Record → Except (Failure EvalError) Store
  | declared typeName x display => (s.declare x typeName display).map Prod.snd
  | assigned x display => (s.assign x display).map Prod.snd
  | _ => .ok s

namespace Store

/-- The store that records build, replayed one after the other. -/
def replay (s : Store) (records : List Record) : Except (Failure EvalError) Store :=
  records.foldlM Record.replay s

/-- A step is replayed from its record. -/
lemma Step.replay_eq {s t : Store} {r : Record} (h : Step s r t) : r.replay s = .ok t := by
  cases h with
  | @declare _ x typeName _ v hdeclare =>
      obtain ⟨hfind, type, htype, hv, rfl⟩ := declare_eq_ok_iff.mp hdeclare
      have hagain : s.declare x typeName v.display = .ok (v, s.push ⟨x, type, v⟩) :=
        declare_eq_ok_iff.mpr ⟨hfind, type, htype, coerced_display hv, rfl⟩
      rw [Record.replay, hagain]
      rfl
  | @assign _ x _ v hassign =>
      obtain ⟨b, hfind, hv, rfl⟩ := assign_eq_ok_iff.mp hassign
      have hagain : s.assign x v.display = .ok (v, s.set x v) :=
        assign_eq_ok_iff.mpr ⟨b, hfind, coerced_display hv, rfl⟩
      rw [Record.replay, hagain]
      rfl
  | other hchannel =>
      cases r with
      | declared typeName x display => exact absurd rfl hchannel
      | assigned x display => exact absurd rfl hchannel
      | _ => rfl

/-- A step whose record is not one of the store goes nowhere. -/
lemma Step.eq_of_channel_ne {s t : Store} {r : Record} (h : Step s r t)
    (hchannel : r.channel ≠ .store) : t = s := by
  cases h with
  | declare _ => exact absurd rfl hchannel
  | assign _ => exact absurd rfl hchannel
  | other _ => rfl

/-- A path is replayed from its records of the store. -/
lemma Path.replay_eq {s t : Store} {rs : List Record} (h : Path s rs t) :
    s.replay (rs.filter fun r => r.channel = .store) = .ok t := by
  induction h with
  | nil s => rfl
  | @cons s t u r rs hstep _ ih =>
      by_cases hchannel : r.channel = .store
      · rw [List.filter_cons_of_pos (by simpa using hchannel), replay, List.foldlM_cons,
          hstep.replay_eq]
        exact ih
      · rw [List.filter_cons_of_neg (by simpa using hchannel), ← hstep.eq_of_channel_ne hchannel]
        exact ih

end Store

/-- **The journal rebuilds the store.** After any lines, whether they fail or not, the records of
the store can all be replayed on the empty store. They build the store of the session, with the same
variables in the same order, the same types and the same values. -/
theorem replay_journal (lines : List Text) :
    Store.empty.replay ((Session.new.journalOf lines).filter fun r => r.channel = .store)
      = .ok (Session.new.after lines).store :=
  (Session.new.path_runAll lines).replay_eq

end LineShell
