import Worklog.Proofs.Http.Operation

namespace Worklog.Http

theorem toOption_eq_some_iff {ε α : Type} {x : Except ε α} {a : α} :
    x.toOption = some a ↔ x = .ok a := by
  cases x <;> simp [Except.toOption]

namespace Request

/-- The route that takes a request. -/
def route? (r : Request) : Option Route :=
  ((Route.ofSegments r.target.segments).find? (·.1 = r.method)).map (·.2)

/-- The body of a request, if its route has one. -/
def bodyFor (r : Request) (route : Route) : Except BadBody Body :=
  if route.hasBody then r.readBody else .ok .missing

/-- The call that a request asks for: a route takes it, its body can be read, and its parts are in
    order. -/
def asks (r : Request) : Option Call := do
  let route ← r.route?
  let body ← (r.bodyFor route).toOption
  (route.read r.target body).toOption

end Request

namespace Route

/-- No route is for the methods that the service answers by itself. -/
theorem method_of_mem_ofExact {segments : List String} {found : String × Route}
    (h : found ∈ ofExact segments) : found.1 ≠ "OPTIONS" ∧ found.1 ≠ "HEAD" := by
  unfold ofExact at h
  split at h
  all_goals try split at h
  all_goals
    simp only [List.mem_cons, List.not_mem_nil, or_false] at h
    try rcases h with rfl | rfl | rfl
  all_goals simp_all

theorem method_of_mem_ofSegments {segments : List String} {found : String × Route}
    (h : found ∈ ofSegments segments) : found.1 ≠ "OPTIONS" ∧ found.1 ≠ "HEAD" := by
  unfold ofSegments at h
  split at h
  · exact method_of_mem_ofExact h
  · exact method_of_mem_ofExact h

end Route

namespace Response

/-- The response to a call that has ended. -/
def ofEnd : Except Fault Response → Response
  | .ok response => response
  | .error fault => .ofFault fault

end Response

namespace Service

variable {fresh : Uuid} {r : Request} {c : Call} {s t : Service}

/-- What is left of a service whose database has become another one, but for its log. -/
structure Leaves (s : Service) (db : Database) (t : Service) : Prop where
  clock : t.clock = s.clock
  opened : t.opened = s.opened
  origins : t.origins = s.origins
  database : db.Alike t.database

theorem leaves_note (s : Service) (db : Database) (record : Log.Record) :
    s.Leaves db ((s.onto db).note record) := ⟨rfl, rfl, rfl, Database.alike_note record db⟩

theorem leaves_self (s : Service) : s.Leaves s.database s := ⟨rfl, rfl, rfl, .refl _⟩

theorem find_of_asks (h : r.asks = some c) : ∃ found body,
    (Route.ofSegments r.target.segments).find? (·.1 = r.method) = some found ∧
      r.bodyFor found.2 = .ok body ∧ found.2.read r.target body = .ok c := by
  simp only [Request.asks, Option.bind_eq_bind, Option.bind_eq_some_iff] at h
  obtain ⟨route, hroute, body, hbody, hread⟩ := h
  obtain ⟨found, hfound, rfl⟩ := Option.map_eq_some_iff.mp hroute
  exact ⟨found, body, hfound, toOption_eq_some_iff.mp hbody, toOption_eq_some_iff.mp hread⟩

theorem method_of_asks (h : r.asks = some c) : r.method ≠ "OPTIONS" ∧ r.method ≠ "HEAD" := by
  obtain ⟨found, _, hfound, _⟩ := find_of_asks h
  have hmethod : found.1 = r.method := by simpa using List.find?_some hfound
  rw [← hmethod]
  exact Route.method_of_mem_ofSegments (List.mem_of_find?_eq_some hfound)

theorem dispatch_of_asks (h : r.asks = some c) (hopened : s.opened = true) :
    dispatch fresh r s = call fresh r c s := by
  obtain ⟨found, body, hfound, hbody, hread⟩ := find_of_asks h
  have hfollow : dispatch fresh r s = follow fresh r found.2 s := by rw [dispatch, hfound]
  rw [hfollow, follow_of_body hbody, hopened, hread]
  simp [proceed]

/-- The end of a call that is made by an open service. -/
theorem given_of_call (hopened : s.opened = true) (fresh : Uuid) (r : Request) (c : Call) :
    (call fresh r c s).1.given = Response.ofEnd (c.run fresh s.clock s.database).1 ∧
      s.Leaves (c.run fresh s.clock s.database).2 (call fresh r c s).2 := by
  have hcall := @call_eq fresh r c s (fun _ => hopened) s.database
  rcases hrun : c.run fresh s.clock s.database with ⟨fault | response, db⟩
  · have hgive : call fresh r c s = give r fault (s.onto db) := by
      rw [hrun] at hcall
      exact hcall
    rw [hgive]
    refine ⟨?_, leaves_note s db _⟩
    cases fault <;> rfl
  · have hanswer : call fresh r c s = (.response response, s.onto db) := by
      rw [hrun] at hcall
      exact hcall
    rw [hanswer]
    exact ⟨rfl, rfl, rfl, rfl, .refl _⟩

theorem answer_eq_finish (h : r.method ≠ "OPTIONS") (fresh : Uuid) (s : Service) :
    s.answer fresh r = answer.finish fresh r s (r.header? "origin") := by
  cases horigin : r.header? "origin" with
  | none => simp only [answer, horigin]
  | some origin =>
    cases hmethod : r.header? "access-control-request-method" with
    | none => simp only [answer, horigin, hmethod]
    | some method => simp only [answer, horigin, hmethod, if_neg h]

/-- What a response carries is not changed on its way out, unless the request asks for no body. -/
theorem content_of_finish (h : r.method ≠ "HEAD") (fresh : Uuid) (s : Service) (origin : Option String) :
    (answer.finish fresh r s origin).1.content = (dispatch fresh r s).1.given.content := by
  have hallowing (origins : List String) (response : Response) :
      (response.allowing origins origin).content = response.content := by
    unfold Response.allowing
    split
    · split <;> rfl
    · rfl
  unfold answer.finish
  rcases dispatch fresh r s with ⟨response | response, after⟩
  · simp only [trimmed, if_neg h, Outcome.given, hallowing]
  · simp only [trimmed, if_neg h, Outcome.given]

/-- A request is answered as the call that it asks for ends. -/
theorem answer_of_asks (h : r.asks = some c) (hopened : s.opened = true) :
    (s.answer fresh r).1.status = (Response.ofEnd (c.run fresh s.clock s.database).1).status ∧
      (s.answer fresh r).1.content = (Response.ofEnd (c.run fresh s.clock s.database).1).content ∧
      s.Leaves (c.run fresh s.clock s.database).2 (s.answer fresh r).2 := by
  obtain ⟨hoptions, hhead⟩ := method_of_asks h
  obtain ⟨hgiven, hleaves⟩ := given_of_call hopened fresh r c
  obtain ⟨hstatus, hafter⟩ := finish_eq fresh r s (r.header? "origin")
  have hcontent := content_of_finish hhead fresh s (r.header? "origin")
  rw [answer_eq_finish hoptions, hstatus, hcontent, hafter, dispatch_of_asks h hopened, hgiven]
  exact ⟨rfl, rfl, hleaves⟩

theorem follow_of_unasked {route : Route} (h : (r.bodyFor route).toOption.bind
    (fun body => (route.read r.target body).toOption) = none) (s : Service) :
    s.Leaves s.database (follow fresh r route s).2 := by
  cases hbody : r.bodyFor route with
  | error e =>
    have hfollow : follow fresh r route s = match e with
        | .noJson position => refuse r [⟨["body", Digits.text position], .badJson⟩] s
        | .unreadable => (.response (.detail 400 "There was an error parsing the body"), s) := by
      change (if route.hasBody then r.readBody else .ok .missing) = Except.error e at hbody
      rw [follow, hbody]
      cases e <;> rfl
    rw [hfollow]
    cases e with
    | noJson position => exact leaves_note s s.database _
    | unreadable => exact leaves_self s
  | ok body =>
    rw [hbody] at h
    rw [follow_of_body hbody]
    split
    · exact leaves_note s s.database _
    · cases hread : route.read r.target body with
      | error is => exact leaves_note s s.database _
      | ok c =>
        rw [toOption_eq_some_iff.mpr rfl, Option.bind_some, hread] at h
        cases h

/-- A request that asks for nothing leaves the database alone. -/
theorem answer_of_unasked (h : r.asks = none) (fresh : Uuid) (s : Service) :
    s.Leaves s.database (s.answer fresh r).2 := by
  have hdispatch : s.Leaves s.database (dispatch fresh r s).2 := by
    cases hfound : (Route.ofSegments r.target.segments).find? (·.1 = r.method) with
    | some found =>
      have hfollow : dispatch fresh r s = follow fresh r found.2 s := by rw [dispatch, hfound]
      rw [hfollow]
      refine follow_of_unasked ?_ s
      simpa only [Request.asks, Request.route?, hfound, Option.map_some, Option.bind_eq_bind,
        Option.bind_some] using h
    | none =>
      rw [dispatch, hfound]
      cases Route.ofSegments r.target.segments <;> exact leaves_self s
  by_cases hoptions : r.method = "OPTIONS"
  · cases horigin : r.header? "origin" with
    | none =>
      simp only [answer, horigin, (finish_eq fresh r s _).2]
      exact hdispatch
    | some origin =>
      cases hmethod : r.header? "access-control-request-method" with
      | none =>
        simp only [answer, horigin, hmethod, (finish_eq fresh r s _).2]
        exact hdispatch
      | some method =>
        simp only [answer, horigin, hmethod, if_pos hoptions]
        exact leaves_self s
  · rw [answer_eq_finish hoptions, (finish_eq fresh r s _).2]
    exact hdispatch

end Service
end Worklog.Http
