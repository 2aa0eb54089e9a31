import GraphQuery.Proofs.Construction.Related
import GraphQuery.Proofs.Outcome

/-!
# Statements that were opened

Opening a statement fills in its scope and its target, and leaves every clause empty. Two runs that
open a statement of one kind on related targets have related statements, whatever rows the targets
turn out to have.
-/

namespace GraphQuery

open Outcome

variable {related : Expr → Expr → Prop} {rename : ScopeId → ScopeId} {db : Database}
  {scope : ScopeId} {a b : Target}

theorem Trailer.Related.empty : Trailer.Related related .empty .empty :=
  { mode := .none, timeout := rfl, parallel := rfl }

theorem Select.Related.of {s t : Select} (target : Target.Related related a b)
    (left : Select.of db scope a = .ok s) (right : Select.of db (rename scope) b = .ok t) :
    Select.Related related rename s t := by
  obtain ⟨row, _, rfl⟩ := map_eq_ok.mp left
  obtain ⟨row', _, rfl⟩ := map_eq_ok.mp right
  exact {
    scope := rfl, target := target, projection := .all, only := rfl, condition := .none,
    split := rfl, group := rfl, order := .nil, limit := rfl, start := rfl, fetch := rfl,
    timeout := rfl, parallel := rfl }

theorem Create.Related.of {s t : Create} (target : Target.Related related a b)
    (left : Create.of db scope a = .ok s) (right : Create.of db (rename scope) b = .ok t) :
    Create.Related related rename s t := by
  obtain ⟨row, _, rest⟩ := bind_eq_ok.mp left
  obtain ⟨input, _, made⟩ := bind_eq_ok.mp rest
  obtain ⟨row', _, rest'⟩ := bind_eq_ok.mp right
  obtain ⟨input', _, made'⟩ := bind_eq_ok.mp rest'
  cases made
  cases made'
  exact { scope := rfl, target := target, only := rfl, payload := .none, trailer := .empty }

theorem Update.Related.of {upsert : Bool} {s t : Update} (target : Target.Related related a b)
    (left : Update.of db scope upsert a = .ok s)
    (right : Update.of db (rename scope) upsert b = .ok t) :
    Update.Related related rename s t := by
  obtain ⟨row, _, rest⟩ := bind_eq_ok.mp left
  obtain ⟨input, _, made⟩ := bind_eq_ok.mp rest
  obtain ⟨row', _, rest'⟩ := bind_eq_ok.mp right
  obtain ⟨input', _, made'⟩ := bind_eq_ok.mp rest'
  cases made
  cases made'
  exact {
    scope := rfl, upsert := rfl, target := target, only := rfl, payload := .none,
    condition := .none, trailer := .empty }

theorem Delete.Related.of {s t : Delete} (target : Target.Related related a b)
    (left : Delete.of db scope a = .ok s) (right : Delete.of db (rename scope) b = .ok t) :
    Delete.Related related rename s t := by
  obtain ⟨row, _, rfl⟩ := map_eq_ok.mp left
  obtain ⟨row', _, rfl⟩ := map_eq_ok.mp right
  exact { scope := rfl, target := target, only := rfl, condition := .none, trailer := .empty }

theorem Insert.Related.start (scope : ScopeId) (relation : Bool) (d : Declaration) :
    Insert.Related related rename (Insert.start scope relation d)
      (Insert.start (rename scope) relation d) :=
  { scope := rfl, table := rfl, relation := rfl, ignore := rfl, data := .empty,
    onDuplicate := .nil, trailer := .empty }

theorem Insert.Related.of {table : String} {s t : Insert}
    (left : Insert.of db scope table = .ok s) (right : Insert.of db (rename scope) table = .ok t) :
    Insert.Related related rename s t := by
  obtain ⟨d, found, rfl⟩ := map_eq_ok.mp left
  obtain ⟨d', found', rfl⟩ := map_eq_ok.mp right
  cases found.symm.trans found'
  exact .start scope false d

theorem Insert.Related.ofEdge {edge : String} {s t : Insert}
    (left : Insert.ofEdge db scope edge = .ok s)
    (right : Insert.ofEdge db (rename scope) edge = .ok t) :
    Insert.Related related rename s t := by
  obtain ⟨e, found, rfl⟩ := map_eq_ok.mp left
  obtain ⟨e', found', rfl⟩ := map_eq_ok.mp right
  cases found.symm.trans found'
  exact .start scope true (.edge e)

theorem Relate.Related.of {edge : String} {c d : Target} {s t : Relate}
    (source : Target.Related related a b) (target : Target.Related related c d)
    (left : Relate.of db scope edge a c = .ok s)
    (right : Relate.of db (rename scope) edge b d = .ok t) :
    Relate.Related related rename s t := by
  obtain ⟨decl, _, rest⟩ := bind_eq_ok.mp left
  obtain ⟨_, _, rest⟩ := bind_eq_ok.mp rest
  obtain ⟨_, _, made⟩ := bind_eq_ok.mp rest
  obtain ⟨decl', _, rest'⟩ := bind_eq_ok.mp right
  obtain ⟨_, _, rest'⟩ := bind_eq_ok.mp rest'
  obtain ⟨_, _, made'⟩ := bind_eq_ok.mp rest'
  cases made
  cases made'
  exact {
    scope := rfl, edge := rfl, source := source, target := target, only := rfl,
    payload := .none, trailer := .empty }

end GraphQuery
