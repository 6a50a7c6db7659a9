import Worklog.Proofs.Field.Description
import Worklog.Proofs.Http.Asked

namespace Worklog

namespace Http

theorem Body.members_eq_ok_iff {α : Type} {reader : List (String × Json) → Except (List Issue) α}
    {body : Body} {a : α} :
    body.members reader = .ok a ↔ ∃ ms, body = .value (.obj ms) ∧ reader ms = .ok a := by
  cases body with
  | missing => simp [members]
  | foreign => simp [members]
  | value v =>
    cases v with
    | obj ms => simp [members, except_mapError_eq_ok_iff]
    | _ => simp [members]

theorem Route.both_eq_ok_iff {α β : Type} {x : Except (List Issue) α} {y : Except (List Issue) β} {a : α}
    {b : β} : both x y = .ok (a, b) ↔ x = .ok a ∧ y = .ok b := by
  cases x <;> cases y <;> simp [both]

theorem Route.parameter_le {name : String} {default least high n : Nat} {t : Target}
    (h : parameter name default least (some high) t = .ok n) (hdefault : default ≤ high) : n ≤ high := by
  unfold parameter at h
  split at h
  · cases h
    exact hdefault
  · rw [except_mapError_eq_ok_iff] at h
    obtain ⟨i, _, hbounded⟩ := except_bind_eq_ok_iff.mp h
    unfold bounded at hbounded
    split at hbounded
    · cases hbounded
    · dsimp only at hbounded
      split at hbounded
      · cases hbounded
      · cases hbounded
        omega

namespace Request

variable {r : Request} {c : Call} {draft : TaskDraft} {patch : TaskPatch} {id : Int} {limit offset : Nat}

theorem asks_eq_some_iff : r.asks = some c ↔ ∃ route body, r.route? = some route ∧
    r.bodyFor route = .ok body ∧ route.read r.target body = .ok c := by
  simp only [asks, Option.bind_eq_bind, Option.bind_eq_some_iff, toOption_eq_some_iff]
  constructor
  · rintro ⟨route, hroute, body, h⟩
    exact ⟨route, body, hroute, h⟩
  · rintro ⟨route, body, hroute, h⟩
    exact ⟨route, hroute, body, h⟩

theorem asks_createTask_iff : r.asks = some (.createTask draft) ↔ r.route? = some .createTask ∧
    ∃ ms, r.readBody = .ok (.value (.obj ms)) ∧ TaskDraft.ofMembers ms = .ok draft := by
  rw [asks_eq_some_iff]
  constructor
  · rintro ⟨route, body, hroute, hbody, hread⟩
    cases route with
    | createTask =>
      obtain ⟨_, hmembers, hdraft⟩ := except_map_eq_ok_iff.mp hread
      cases hdraft
      obtain ⟨ms, rfl, hms⟩ := Body.members_eq_ok_iff.mp hmembers
      exact ⟨hroute, ms, hbody, hms⟩
    | _ => simp [Route.read, except_map_eq_ok_iff] at hread
  · rintro ⟨hroute, ms, hbody, hms⟩
    exact ⟨_, _, hroute, hbody, except_map_eq_ok_iff.mpr
      ⟨draft, Body.members_eq_ok_iff.mpr ⟨ms, rfl, hms⟩, rfl⟩⟩

theorem asks_patchTask_iff : r.asks = some (.patchTask id patch) ↔
    ∃ text ms, r.route? = some (.patchTask text) ∧ Integer.parse text = .ok id ∧
      r.readBody = .ok (.value (.obj ms)) ∧ TaskPatch.ofMembers ms = .ok patch := by
  rw [asks_eq_some_iff]
  constructor
  · rintro ⟨route, body, hroute, hbody, hread⟩
    cases route with
    | patchTask text =>
      obtain ⟨_, hboth, hpatch⟩ := except_map_eq_ok_iff.mp hread
      cases hpatch
      obtain ⟨hid, hmembers⟩ := Route.both_eq_ok_iff.mp hboth
      obtain ⟨ms, rfl, hms⟩ := Body.members_eq_ok_iff.mp hmembers
      exact ⟨text, ms, hroute, except_mapError_eq_ok_iff.mp hid, hbody, hms⟩
    | _ => simp [Route.read, except_map_eq_ok_iff] at hread
  · rintro ⟨text, ms, hroute, hid, hbody, hms⟩
    refine ⟨_, _, hroute, hbody, except_map_eq_ok_iff.mpr ⟨(id, patch), Route.both_eq_ok_iff.mpr ⟨?_, ?_⟩, rfl⟩⟩
    · exact except_mapError_eq_ok_iff.mpr hid
    · exact Body.members_eq_ok_iff.mpr ⟨ms, rfl, hms⟩

theorem limit_of_asks (h : r.asks = some (.listTasks limit offset)) : limit ≤ 100 := by
  obtain ⟨route, body, _, _, hread⟩ := asks_eq_some_iff.mp h
  cases route with
  | listTasks =>
    obtain ⟨_, hboth, hcall⟩ := except_map_eq_ok_iff.mp hread
    cases hcall
    exact Route.parameter_le (Route.both_eq_ok_iff.mp hboth).1 (by decide)
  | _ => simp [Route.read, except_map_eq_ok_iff] at hread

/-- The description that a request carries. -/
def description? (r : Request) : Option Json :=
  match r.readBody with
  | .ok (.value v) => v.get? "description"
  | _ => none

theorem members_of_description {v : Json} (h : r.description? = some v) :
    ∃ ms, r.readBody = .ok (.value (.obj ms)) ∧ Json.get? "description" (.obj ms) = some v := by
  unfold description? at h
  split at h
  · next body hbody =>
    cases body with
    | obj ms => exact ⟨ms, hbody, h⟩
    | _ => cases h
  · cases h

theorem description_of_createTask (h : r.asks = some (.createTask draft)) :
    ∃ text, r.description? = some (.str text) ∧ draft.description = Blank.strip text := by
  obtain ⟨_, ms, hbody, hms⟩ := asks_createTask_iff.mp h
  obtain ⟨v, hget, hv⟩ := TaskDraft.ofMembers_eq_ok_iff.mp hms
  obtain ⟨text, rfl, _, hdraft⟩ := Description.ofJson_eq_ok_iff.mp hv
  exact ⟨text, by rw [description?, hbody]; exact hget, hdraft⟩

theorem description_of_patchTask (h : r.asks = some (.patchTask id patch)) :
    patch.description = none ∧ (r.description? = none ∨ r.description? = some .null) ∨
      ∃ text, r.description? = some (.str text) ∧ patch.description = some (Blank.strip text) := by
  obtain ⟨_, ms, _, _, hbody, hms⟩ := asks_patchTask_iff.mp h
  have hdescription : r.description? = Json.get? "description" (.obj ms) := by rw [description?, hbody]
  rw [hdescription]
  obtain ⟨hget, rfl⟩ | ⟨v, hget, _, hv⟩ := TaskPatch.ofMembers_eq_ok_iff.mp hms
  · exact .inl ⟨rfl, .inl hget⟩
  · by_cases hnull : v = .null
    · subst hnull
      exact .inl ⟨(Except.ok.inj hv).symm, .inr hget⟩
    · rw [Description.ofJson?_of_ne_null hnull] at hv
      obtain ⟨d, hd, hsome⟩ := except_map_eq_ok_iff.mp hv
      obtain ⟨text, rfl, _, rfl⟩ := Description.ofJson_eq_ok_iff.mp hd
      exact .inr ⟨text, hget, hsome.symm⟩

end Request
end Http
end Worklog
