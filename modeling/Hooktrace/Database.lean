import Hooktrace.EndpointRepository
import Hooktrace.ForeignKeys
import Hooktrace.ForwardRepository

/-!
The four tables with the foreign keys that the migrations declare. The one from a request
to its endpoint was declared without an ON DELETE clause, all others cascade.
-/
namespace Hooktrace

open Table ForeignKeys

inductive TableName where
  | endpoints
  | requests
  | forwards
  | replays
  deriving DecidableEq

inductive Row where
  | endpoint (e : Endpoint)
  | request (r : CapturedRequest)
  | forward (f : Forward)
  | replay (p : Replay)
  deriving DecidableEq

namespace Row

def key : Row → TableName × UUID
  | .endpoint e => (.endpoints, e.id)
  | .request r => (.requests, r.id)
  | .forward f => (.forwards, f.id)
  | .replay p => (.replays, p.id)

def references : Row → List (Reference (TableName × UUID))
  | .endpoint _ => []
  | .request r => [⟨(.endpoints, r.endpointId), .noAction⟩]
  | .forward f => [⟨(.requests, f.requestId), .cascade⟩, ⟨(.endpoints, f.endpointId), .cascade⟩]
  | .replay p => [⟨(.requests, p.requestId), .cascade⟩]

end Row

def TableName.rank : TableName → ℕ
  | .endpoints => 0
  | .requests => 1
  | .forwards => 2
  | .replays => 2

def schema : Schema Row (TableName × UUID) where
  key := Row.key
  references := Row.references
  rank k := k.1.rank
  rank_lt r f hf := by
    cases r with
    | endpoint e => simp [Row.references] at hf
    | request r =>
      simp only [Row.references, List.mem_singleton] at hf
      subst hf
      exact Nat.zero_lt_one
    | forward f =>
      simp only [Row.references, List.mem_cons, List.not_mem_nil, or_false] at hf
      rcases hf with rfl | rfl
      · exact Nat.one_lt_two
      · exact Nat.zero_lt_two
    | replay p =>
      simp only [Row.references, List.mem_singleton] at hf
      subst hf
      exact Nat.one_lt_two

def Row.mapEndpoint (u : Update Endpoint) : Row → Row
  | .endpoint e => .endpoint (u.onRow e)
  | row => row

def Row.mapForward (u : Update Forward) : Row → Row
  | .forward f => .forward (u.onRow f)
  | row => row

structure Database where
  endpoints : List Endpoint
  requests : List CapturedRequest
  forwards : List Forward
  replays : List Replay

namespace Database

def empty : Database := ⟨[], [], [], []⟩

def rows (db : Database) : List Row :=
  db.endpoints.map .endpoint ++ db.requests.map .request ++ db.forwards.map .forward ++
    db.replays.map .replay

@[simp] theorem endpoint_mem_rows {db : Database} {e : Endpoint} :
    .endpoint e ∈ db.rows ↔ e ∈ db.endpoints := by simp [rows]

@[simp] theorem request_mem_rows {db : Database} {r : CapturedRequest} :
    .request r ∈ db.rows ↔ r ∈ db.requests := by simp [rows]

@[simp] theorem forward_mem_rows {db : Database} {f : Forward} :
    .forward f ∈ db.rows ↔ f ∈ db.forwards := by simp [rows]

@[simp] theorem replay_mem_rows {db : Database} {p : Replay} :
    .replay p ∈ db.rows ↔ p ∈ db.replays := by simp [rows]

def admits (db : Database) (row : Row) : Bool := (ForeignKeys.insert schema row db.rows).isSome

def put (db : Database) : Row → Database
  | .endpoint e => { db with endpoints := db.endpoints ++ [e] }
  | .request r => { db with requests := db.requests ++ [r] }
  | .forward f => { db with forwards := db.forwards ++ [f] }
  | .replay p => { db with replays := db.replays ++ [p] }

def save (row : Row) (db : Database) : Option Database :=
  if db.admits row then some (db.put row) else none

/-- The token is unique besides the id. -/
def saveEndpoint (e : Endpoint) (db : Database) : Option Database :=
  if e.token ∈ db.endpoints.map Endpoint.token then none else db.save (.endpoint e)

def saveRequest (r : CapturedRequest) (db : Database) : Option Database := db.save (.request r)

def saveForward (f : Forward) (db : Database) : Option Database := db.save (.forward f)

def saveReplay (p : Replay) (db : Database) : Option Database := db.save (.replay p)

def updateEndpoints (u : Update Endpoint) (db : Database) : Database :=
  { db with endpoints := u.apply db.endpoints }

def updateForwards (u : Update Forward) (db : Database) : Database :=
  { db with forwards := u.apply db.forwards }

/-- The WHERE clause of a DELETE on the table of endpoints. -/
def hitsEndpoint (p : Endpoint → Bool) : Row → Bool
  | .endpoint e => p e
  | _ => false

def restrict (stays : Row → Bool) (db : Database) : Database where
  endpoints := db.endpoints.filter fun e => stays (.endpoint e)
  requests := db.requests.filter fun r => stays (.request r)
  forwards := db.forwards.filter fun f => stays (.forward f)
  replays := db.replays.filter fun p => stays (.replay p)

/-- `DELETE FROM endpoints WHERE p`, with the number of endpoints deleted. -/
def deleteEndpoints (p : Endpoint → Bool) (db : Database) : Option (Database × ℕ) :=
  if blocked schema db.rows (hitsEndpoint p) then none
  else some (db.restrict fun row => !doomed schema db.rows (hitsEndpoint p) row,
    (db.endpoints.filter p).length)

theorem rows_restrict (stays : Row → Bool) (db : Database) :
    (db.restrict stays).rows = db.rows.filter stays := by
  simp only [rows, restrict, List.filter_append, List.filter_map]
  rfl

theorem restrict_congr {stays stays' : Row → Bool} {db : Database}
    (h : ∀ row ∈ db.rows, stays row = stays' row) : db.restrict stays = db.restrict stays' := by
  simp only [restrict, Database.mk.injEq]
  refine ⟨?_, ?_, ?_, ?_⟩
  · exact List.filter_congr fun e he => h _ (endpoint_mem_rows.mpr he)
  · exact List.filter_congr fun r hr => h _ (request_mem_rows.mpr hr)
  · exact List.filter_congr fun f hf => h _ (forward_mem_rows.mpr hf)
  · exact List.filter_congr fun p hp => h _ (replay_mem_rows.mpr hp)

theorem filter_hitsEndpoint (p : Endpoint → Bool) (db : Database) :
    db.rows.filter (hitsEndpoint p) = (db.endpoints.filter p).map .endpoint := by
  have hnone : ∀ {R : Type} (f : R → Row) (t : List R), (∀ r, hitsEndpoint p (f r) = false) →
      (t.map f).filter (hitsEndpoint p) = [] := by
    intro R f t h
    rw [List.filter_eq_nil_iff]
    intro row hrow
    obtain ⟨r, -, rfl⟩ := List.mem_map.mp hrow
    simp [h r]
  rw [rows, List.filter_append, List.filter_append, List.filter_append, List.filter_map,
    hnone .request _ fun _ => rfl, hnone .forward _ fun _ => rfl, hnone .replay _ fun _ => rfl]
  simp only [List.append_nil]
  rfl

/-- The tables are left as the DELETE on all rows leaves them. -/
theorem rows_deleteEndpoints (p : Endpoint → Bool) (db : Database) :
    (db.deleteEndpoints p).map (fun left => (left.1.rows, left.2)) =
      ForeignKeys.delete schema (hitsEndpoint p) db.rows := by
  unfold deleteEndpoints ForeignKeys.delete
  split
  · rfl
  · simp [rows_restrict, filter_hitsEndpoint]

theorem sound_deleteEndpoints {p : Endpoint → Bool} {db db' : Database} {n : ℕ}
    (hsound : Sound schema db.rows) (h : db.deleteEndpoints p = some (db', n)) :
    Sound schema db'.rows := by
  have hdelete := rows_deleteEndpoints p db
  rw [h] at hdelete
  exact hsound.delete hdelete.symm

theorem rows_put (db : Database) (row : Row) : (db.put row).rows.Perm (db.rows ++ [row]) := by
  rw [List.perm_iff_count]
  intro row'
  cases row <;>
    simp only [rows, put, List.map_append, List.count_append, List.map_cons, List.map_nil] <;>
    omega

/-- What an INSERT that is not rejected has met, and does. -/
theorem save_eq_some {db db' : Database} {row : Row} (h : db.save row = some db') :
    db' = db.put row ∧ schema.key row ∉ db.rows.map schema.key ∧
      ∀ f ∈ schema.references row, f.target ∈ db.rows.map schema.key := by
  unfold save at h
  split at h
  · rename_i hadmits
    obtain ⟨t, hinsert⟩ := Option.isSome_iff_exists.mp hadmits
    exact ⟨(Option.some.inj h).symm, (insert_eq_some hinsert).2⟩
  · simp at h

theorem saveEndpoint_eq_some {db db' : Database} {e : Endpoint} (h : db.saveEndpoint e = some db') :
    db.save (.endpoint e) = some db' := by
  unfold saveEndpoint at h
  split at h
  · simp at h
  · exact h

/-- What a new row does not meet it does not change. -/
theorem filter_put {p : Row → Bool} {row : Row} (h : p row = false) (db : Database) :
    (db.put row).rows.filter p = db.rows.filter p := by
  cases row <;> simp [rows, put, h]

theorem filter_updateEndpoints {u : Update Endpoint} {p : Row → Bool}
    (h : ∀ e, u.holds e = true → p (.endpoint e) = false ∧ p (.endpoint (u.assign e)) = false)
    (db : Database) : (db.updateEndpoints u).rows.filter p = db.rows.filter p := by
  have hendpoints := u.filter_apply (p := fun e => p (.endpoint e)) h db.endpoints
  simp only [rows, updateEndpoints, List.filter_append, List.filter_map, Function.comp_def,
    hendpoints]

theorem filter_updateForwards {u : Update Forward} {p : Row → Bool}
    (h : ∀ f, u.holds f = true → p (.forward f) = false ∧ p (.forward (u.assign f)) = false)
    (db : Database) : (db.updateForwards u).rows.filter p = db.rows.filter p := by
  have hforwards := u.filter_apply (p := fun f => p (.forward f)) h db.forwards
  simp only [rows, updateForwards, List.filter_append, List.filter_map, Function.comp_def,
    hforwards]

theorem sound_save {db db' : Database} {row : Row} (hsound : Sound schema db.rows)
    (h : db.save row = some db') : Sound schema db'.rows := by
  obtain ⟨rfl, hfresh, hreferences⟩ := save_eq_some h
  exact (hsound.append hfresh hreferences).perm (rows_put db row).symm

theorem rows_updateEndpoints (u : Update Endpoint) (db : Database) :
    (db.updateEndpoints u).rows = db.rows.map (Row.mapEndpoint u) := by
  simp [rows, updateEndpoints, Update.apply, Row.mapEndpoint, Function.comp_def]

/-- An update of the endpoints neither makes room for a new row nor takes it. -/
theorem save_updateEndpoints {u : Update Endpoint} (h : KeepsKey Endpoint.id u) {db db' : Database}
    {row : Row} (hsave : db.save row = some db') :
    (db.updateEndpoints u).save row = some ((db.updateEndpoints u).put row) := by
  have hkey : (db.updateEndpoints u).rows.map schema.key = db.rows.map schema.key := by
    rw [rows_updateEndpoints, List.map_map]
    refine List.map_congr_left fun row _ => ?_
    cases row <;> simp [schema, Row.key, Row.mapEndpoint, h.onRow]
  unfold save at hsave ⊢
  split at hsave
  · rename_i hadmits
    rw [if_pos]
    exact (insert_isSome_congr hkey).trans hadmits
  · simp at hsave

theorem sound_updateEndpoints {db : Database} {u : Update Endpoint}
    (hsound : Sound schema db.rows) (h : EndpointRepository.Writer u) :
    Sound schema (db.updateEndpoints u).rows := by
  rw [rows_updateEndpoints]
  refine hsound.map ?_ ?_
  · intro row
    cases row <;> simp [schema, Row.key, Row.mapEndpoint, h.keepsKey.onRow]
  · intro row
    cases row <;> simp [schema, Row.references, Row.mapEndpoint]

theorem sound_updateForwards {db : Database} {u : Update Forward}
    (hsound : Sound schema db.rows) (h : ForwardRepository.Writer u) :
    Sound schema (db.updateForwards u).rows := by
  have hrows : (db.updateForwards u).rows = db.rows.map (Row.mapForward u) := by
    simp [rows, updateForwards, Update.apply, Row.mapForward, Function.comp_def]
  rw [hrows]
  refine hsound.map ?_ ?_
  · intro row
    cases row <;> simp [schema, Row.key, Row.mapForward, h.keepsKey.onRow]
  · intro row
    cases row with
    | forward f => simp [schema, Row.references, Row.mapForward,
        (h.sameOrigin_onRow f).request_eq, (h.sameOrigin_onRow f).endpoint_eq]
    | _ => simp [schema, Row.references, Row.mapForward]

end Database

end Hooktrace
