import ResponseBandwidthLimiter.Limiter
import Mathlib.Data.Finset.Basic

open collections
open response_bandwidth_limiter.limiter

namespace collections

variable {A : Type*} [DecidableEq A] {items : List A}

theorem eraseDups_concat (items : List A) (last : A) :
    (items ++ [last]).eraseDups = if last ∈ items then items.eraseDups else items.eraseDups ++ [last] := by
  rw [List.eraseDups_append]
  by_cases hmem : last ∈ items <;> simp [List.removeAll, hmem, List.eraseDups_cons]

theorem nodup_eraseDups : items.eraseDups.Nodup := by
  induction items using List.reverseRecOn with
  | nil => exact List.nodup_nil
  | append_singleton earlier last ih =>
    rw [eraseDups_concat]
    split
    · exact ih
    · next hfresh =>
      refine List.nodup_append.mpr ⟨ih, List.nodup_singleton last, ?_⟩
      rintro item hitem _ hlast rfl
      rw [List.mem_singleton.mp hlast, List.mem_eraseDups] at hitem
      exact hfresh hitem

theorem eraseDups_sublist : items.eraseDups.Sublist items := by
  induction items using List.reverseRecOn with
  | nil => exact List.Sublist.refl _
  | append_singleton earlier last ih =>
    rw [eraseDups_concat]
    split
    · exact ih.trans (List.sublist_append_left _ _)
    · exact List.Sublist.append ih (List.Sublist.refl _)

end collections

namespace response_bandwidth_limiter.routing

inductive Match where
  | NONE
  | PARTIAL
  | FULL
  deriving DecidableEq, Repr

/-- A scope maps names to objects. -/
abbrev Scope (V : Type) := OrderedDict String V

/-- The attributes of a route that are read. An attribute it lacks is none;
    lacking sub-routes and having none come to the same. -/
structure Route (V : Type) where
  matches_scope : Option (Scope V → Match × Scope V)
  endpoint : Option V
  name : Option String
  path : Option String
  routes : List (Route V)

/-- `scope.copy()` updated with another scope. -/
def Scope.update {V : Type} (self child_scope : Scope V) : Scope V :=
  child_scope.items.foldl (fun scope entry => scope.set entry.1 entry.2) self

def append_configured_name (candidates : List String) (name : Option String) (configured_names : Finset String) :
    List String :=
  match name with
  | none => candidates
  | some name =>
    if name ≠ "" ∧ name ∈ configured_names ∧ name ∉ candidates then candidates ++ [name] else candidates

section Resolution

variable {V : Type} (dunder_name : V → Option String)

/-- `getattr(endpoint, "__name__", None)`. -/
def get_configured_handler_names (route : Route V) (endpoint : Option V) (path : String)
    (configured_names : Finset String) : List String :=
  let endpoint_name := endpoint.bind dunder_name
  let candidates := append_configured_name [] endpoint_name configured_names
  let candidates := append_configured_name candidates route.name configured_names
  let candidates := append_configured_name candidates (some (strip_char '/' (route.path.getD path))) configured_names
  match endpoint_name with
  | none => candidates
  | some endpoint_name =>
    if endpoint_name = "" then candidates
    else
      ["_response", "_endpoint"].foldl (fun candidates suffix =>
        if ends_with endpoint_name suffix then
          append_configured_name candidates (some (drop_end endpoint_name suffix.length)) configured_names
        else candidates) candidates

mutual

/-- One turn of the loop over the routes. It ends the loop at the first full
    match, also with an empty list. -/
def Route.find_configured_handler_names (route : Route V) (scope : Scope V) (path : String)
    (configured_names : Finset String) : Option (List String) :=
  match route with
  | ⟨none, _, _, _, _⟩ => none
  | ⟨some matches_scope, route_endpoint, name, route_path, nested_routes⟩ =>
    match matches_scope scope with
    | (.FULL, child_scope) =>
      let endpoint := (child_scope.get? "endpoint").or route_endpoint
      let handler_names := get_configured_handler_names dunder_name
        ⟨some matches_scope, route_endpoint, name, route_path, nested_routes⟩ endpoint path configured_names
      if handler_names ≠ [] then some handler_names
      else
        some (find_configured_handler_names nested_routes (scope.update child_scope) path configured_names)
    | (_, _) => none
  termination_by structural route

def find_configured_handler_names (routes : List (Route V)) (scope : Scope V) (path : String)
    (configured_names : Finset String) : List String :=
  match routes with
  | [] => []
  | route :: rest =>
    match route.find_configured_handler_names scope path configured_names with
    | some handler_names => handler_names
    | none => find_configured_handler_names rest scope path configured_names
  termination_by structural routes

end

def find_configured_handler_name (routes : List (Route V)) (scope : Scope V) (path : String)
    (configured_names : Finset String) : Option String :=
  (find_configured_handler_names dunder_name routes scope path configured_names).head?

/-- The identifiers that a route has, in the order of their precedence. -/
def identifiers (route : Route V) (endpoint : Option V) (path : String) : List String :=
  let endpoint_name := endpoint.bind dunder_name
  endpoint_name.toList ++ route.name.toList ++ [strip_char '/' (route.path.getD path)] ++
    endpoint_name.toList.flatMap (fun endpoint_name =>
      (["_response", "_endpoint"].filter (fun suffix => ends_with endpoint_name suffix)).map
        (fun suffix => drop_end endpoint_name suffix.length))

/-- The configured ones among identifiers, each at its first place. -/
def configured (configured_names : Finset String) (names : List String) : List String :=
  (names.filter (fun name => name ≠ "" ∧ name ∈ configured_names)).eraseDups

variable {dunder_name} {route : Route V} {endpoint : Option V} {path : String} {configured_names : Finset String}

theorem append_configured_name_configured (names : List String) (name : Option String) :
    append_configured_name (configured configured_names names) name configured_names =
      configured configured_names (names ++ name.toList) := by
  cases name with
  | none => rw [Option.toList_none, List.append_nil, append_configured_name]
  | some name =>
    rw [configured, configured, Option.toList_some, List.filter_append, List.filter_singleton]
    simp only [append_configured_name, List.mem_eraseDups]
    by_cases hname : name ≠ "" ∧ name ∈ configured_names
    · rw [decide_eq_true hname, cond_true, eraseDups_concat]
      by_cases hmem : name ∈ names.filter (fun name => name ≠ "" ∧ name ∈ configured_names)
      · rw [if_pos hmem, if_neg fun h => h.2.2 hmem]
      · rw [if_neg hmem, if_pos ⟨hname.1, hname.2, hmem⟩]
    · rw [decide_eq_false hname, cond_false, List.append_nil, if_neg fun h => hname ⟨h.1, h.2.1⟩]

/-- The identifiers found on one route are its configured ones. -/
theorem get_configured_handler_names_eq :
    get_configured_handler_names dunder_name route endpoint path configured_names =
      configured configured_names (identifiers dunder_name route endpoint path) := by
  have hfirst : ∀ name, append_configured_name [] name configured_names = configured configured_names name.toList :=
    append_configured_name_configured []
  unfold get_configured_handler_names identifiers
  simp only [hfirst, append_configured_name_configured]
  cases endpoint.bind dunder_name with
  | none => simp only [Option.toList_none, Option.toList_some, List.flatMap_nil, List.append_nil]
  | some endpoint_name =>
    simp only [Option.toList_some, List.flatMap_singleton, List.foldl_cons, List.foldl_nil]
    by_cases hempty : endpoint_name = ""
    · subst hempty
      have hresponse : ends_with "" "_response" = false := by decide
      have hendpoint : ends_with "" "_endpoint" = false := by decide
      rw [if_pos rfl]
      simp only [List.filter_cons, hresponse, hendpoint, Bool.false_eq_true, if_false, List.filter_nil, List.map_nil,
        List.append_nil]
    · rw [if_neg hempty]
      cases hresponse : ends_with endpoint_name "_response" <;>
        cases hendpoint : ends_with endpoint_name "_endpoint" <;>
          simp [hresponse, hendpoint, append_configured_name_configured]

/-- A full match of a route, with the scope for what is below it. -/
def Route.Full (route : Route V) (scope child_scope : Scope V) : Prop :=
  ∃ matches_scope, route.matches_scope = some matches_scope ∧ matches_scope scope = (.FULL, child_scope)

theorem Route.Full.unique {scope first second : Scope V} (hfirst : route.Full scope first)
    (hsecond : route.Full scope second) : first = second := by
  obtain ⟨matches_scope, hmatches, hfull⟩ := hfirst
  obtain ⟨_, hsame, hother⟩ := hsecond
  rw [hmatches] at hsame
  cases hsame
  rw [hfull] at hother
  cases hother
  rfl

variable (dunder_name path configured_names)

/-- The configured identifiers of a route that the router took. -/
def step_names (step : Route V × Scope V) : List String :=
  configured configured_names
    (identifiers dunder_name step.1 ((step.2.get? "endpoint").or step.1.endpoint) path)

variable {dunder_name path configured_names}

/-- A turn of the loop that ends it: the route's own identifiers come before
    those below it. -/
theorem Route.find_of_full {scope child_scope : Scope V} (hfull : route.Full scope child_scope) :
    route.find_configured_handler_names dunder_name scope path configured_names =
      some (if step_names dunder_name path configured_names (route, child_scope) ≠ [] then
          step_names dunder_name path configured_names (route, child_scope)
        else routing.find_configured_handler_names dunder_name route.routes (scope.update child_scope) path
          configured_names) := by
  obtain ⟨matches_scope, hmatches, hmatch⟩ := hfull
  obtain ⟨_, endpoint, name, route_path, routes⟩ := route
  cases hmatches
  rw [Route.find_configured_handler_names]
  simp only [hmatch, get_configured_handler_names_eq, step_names, ← apply_ite some]
  rfl

theorem Route.find_of_not_full {scope : Scope V} (hother : ∀ child_scope, ¬ route.Full scope child_scope) :
    route.find_configured_handler_names dunder_name scope path configured_names = none := by
  obtain ⟨matches_scope, endpoint, name, route_path, routes⟩ := route
  cases matches_scope with
  | none => rfl
  | some matches_scope =>
    rw [Route.find_configured_handler_names]
    cases hmatch : matches_scope scope with
    | mk found child_scope =>
      cases found with
      | FULL => exact absurd ⟨matches_scope, rfl, hmatch⟩ (hother child_scope)
      | NONE => rfl
      | PARTIAL => rfl

/-- The way of a router: at each level it takes the first full match and goes on
    below it with the scope of that match. -/
inductive Dispatches : Scope V → List (Route V) → List (Route V × Scope V) → Prop where
  | nil (scope : Scope V) : Dispatches scope [] []
  | skip {scope : Scope V} {route : Route V} {rest : List (Route V)} {steps : List (Route V × Scope V)}
      (hother : ∀ child_scope, ¬ route.Full scope child_scope) (hrest : Dispatches scope rest steps) :
      Dispatches scope (route :: rest) steps
  | take {scope child_scope : Scope V} {route : Route V} {rest : List (Route V)} {steps : List (Route V × Scope V)}
      (hfull : route.Full scope child_scope) (hbelow : Dispatches (scope.update child_scope) route.routes steps) :
      Dispatches scope (route :: rest) ((route, child_scope) :: steps)

theorem exists_dispatches (routes : List (Route V)) (scope : Scope V) : ∃ steps, Dispatches scope routes steps := by
  match routes with
  | [] => exact ⟨[], .nil scope⟩
  | ⟨matches_scope, endpoint, name, route_path, nested_routes⟩ :: rest =>
    by_cases hfull : ∃ child_scope,
        (⟨matches_scope, endpoint, name, route_path, nested_routes⟩ : Route V).Full scope child_scope
    · obtain ⟨child_scope, hfull⟩ := hfull
      obtain ⟨steps, hbelow⟩ := exists_dispatches nested_routes (scope.update child_scope)
      exact ⟨_, .take hfull hbelow⟩
    · obtain ⟨steps, hrest⟩ := exists_dispatches rest scope
      exact ⟨steps, .skip (not_exists.mp hfull) hrest⟩

theorem Dispatches.unique {scope : Scope V} {routes : List (Route V)} {first second : List (Route V × Scope V)}
    (hfirst : Dispatches scope routes first) (hsecond : Dispatches scope routes second) : first = second := by
  induction hfirst generalizing second with
  | nil scope =>
    cases hsecond
    rfl
  | skip hother hrest ih =>
    cases hsecond with
    | skip _ hsecond => exact ih hsecond
    | take hfull _ => exact absurd hfull (hother _)
  | take hfull hbelow ih =>
    cases hsecond with
    | skip hother _ => exact absurd hfull (hother _)
    | take hsecond hbelow =>
      cases hfull.unique hsecond
      rw [ih hbelow]

/-- The outermost configured identifiers on the way of the router. -/
theorem Dispatches.find_configured_handler_names_eq {scope : Scope V} {routes : List (Route V)}
    {steps : List (Route V × Scope V)} (h : Dispatches scope routes steps) :
    find_configured_handler_names dunder_name routes scope path configured_names =
      ((steps.map (step_names dunder_name path configured_names)).find? (· ≠ [])).getD [] := by
  induction h with
  | nil scope => rfl
  | skip hother hrest ih =>
    rw [find_configured_handler_names, Route.find_of_not_full hother]
    exact ih
  | @take scope child_scope route rest steps hfull hbelow ih =>
    rw [find_configured_handler_names, Route.find_of_full hfull, List.map_cons, List.find?_cons]
    by_cases hnames : step_names dunder_name path configured_names (route, child_scope) = []
    · simp only [hnames, ne_eq, not_true_eq_false, if_false, decide_false]
      exact ih
    · simp only [hnames, ne_eq, not_false_eq_true, if_true, decide_true, Option.getD_some]

/-- Trees of routes that differ in routes without a full match and in what comes
    after one. -/
inductive Agree : Scope V → List (Route V) → List (Route V) → Prop where
  | nil (scope : Scope V) : Agree scope [] []
  | left {scope : Scope V} {route : Route V} {routes others : List (Route V)}
      (hother : ∀ child_scope, ¬ route.Full scope child_scope) (hrest : Agree scope routes others) :
      Agree scope (route :: routes) others
  | right {scope : Scope V} {route : Route V} {routes others : List (Route V)}
      (hother : ∀ child_scope, ¬ route.Full scope child_scope) (hrest : Agree scope routes others) :
      Agree scope routes (route :: others)
  | take {scope child_scope : Scope V} {route : Route V} {nested_routes shadowed others : List (Route V)}
      (hfull : route.Full scope child_scope)
      (hbelow : Agree (scope.update child_scope) route.routes nested_routes) :
      Agree scope (route :: shadowed) ({ route with routes := nested_routes } :: others)

theorem Agree.find_configured_handler_names_eq {scope : Scope V} {routes others : List (Route V)}
    (h : Agree scope routes others) :
    find_configured_handler_names dunder_name others scope path configured_names =
      find_configured_handler_names dunder_name routes scope path configured_names := by
  induction h with
  | nil scope => rfl
  | left hother hrest ih =>
    rw [ih, find_configured_handler_names, Route.find_of_not_full hother]
  | right hother hrest ih =>
    rw [find_configured_handler_names, Route.find_of_not_full hother, ← ih]
  | @take scope child_scope route nested_routes shadowed others hfull hbelow ih =>
    have hchanged : Route.Full { route with routes := nested_routes } scope child_scope := hfull
    rw [find_configured_handler_names, find_configured_handler_names, Route.find_of_full hfull,
      Route.find_of_full hchanged, ih]
    rfl

theorem configured_sublist (names : List String) : (configured configured_names names).Sublist names :=
  eraseDups_sublist.trans List.filter_sublist

theorem mem_configured_names {names : List String} {name : String}
    (hname : name ∈ configured configured_names names) :
    name ∈ configured_names := by
  rw [configured, List.mem_eraseDups, List.mem_filter, decide_eq_true_iff] at hname
  exact hname.2.2

theorem Dispatches.exists_step {scope : Scope V} {routes : List (Route V)} {steps : List (Route V × Scope V)}
    (h : Dispatches scope routes steps)
    (hnames : find_configured_handler_names dunder_name routes scope path configured_names ≠ []) :
    ∃ step ∈ steps, find_configured_handler_names dunder_name routes scope path configured_names =
      step_names dunder_name path configured_names step := by
  rw [h.find_configured_handler_names_eq] at hnames ⊢
  cases hfind : (steps.map (step_names dunder_name path configured_names)).find? (· ≠ []) with
  | none =>
    rw [hfind] at hnames
    exact absurd rfl hnames
  | some names =>
    obtain ⟨step, hstep, rfl⟩ := List.mem_map.mp (List.mem_of_find?_eq_some hfind)
    exact ⟨step, hstep, rfl⟩

theorem mem_configured_of_mem_find {routes : List (Route V)} {scope : Scope V} {name : String}
    (hname : name ∈ find_configured_handler_names dunder_name routes scope path configured_names) :
    name ∈ configured_names := by
  obtain ⟨steps, hsteps⟩ := exists_dispatches routes scope
  obtain ⟨step, -, heq⟩ := hsteps.exists_step (List.ne_nil_of_mem hname)
  rw [heq] at hname
  exact mem_configured_names hname

/-- Resolution follows the router's dispatch and nothing else. It finds the
    configured identifiers of the outermost route on the way that has any, each
    once and in their order. -/
theorem route_resolution (routes : List (Route V)) (scope : Scope V) :
    let names := find_configured_handler_names dunder_name routes scope path configured_names
    (∃ steps, Dispatches scope routes steps ∧ (∀ others, Dispatches scope routes others → others = steps) ∧
      names = ((steps.map (step_names dunder_name path configured_names)).find? (· ≠ [])).getD [] ∧
      (names ≠ [] → ∃ step ∈ steps, names.Sublist
        (identifiers dunder_name step.1 ((step.2.get? "endpoint").or step.1.endpoint) path))) ∧
    (∀ others, Agree scope routes others →
      find_configured_handler_names dunder_name others scope path configured_names = names) ∧
    names.Nodup ∧ ∀ name ∈ names, name ∈ configured_names := by
  intro names
  obtain ⟨steps, hsteps⟩ := exists_dispatches routes scope
  refine ⟨⟨steps, hsteps, fun others hothers => hothers.unique hsteps, hsteps.find_configured_handler_names_eq, ?_⟩,
    fun others hothers => hothers.find_configured_handler_names_eq, ?_, fun name => mem_configured_of_mem_find⟩
  · intro hnames
    obtain ⟨step, hstep, heq⟩ := hsteps.exists_step hnames
    refine ⟨step, hstep, ?_⟩
    rw [show names = _ from heq]
    exact configured_sublist _
  · by_cases hnames : names = []
    · rw [hnames]
      exact List.nodup_nil
    · obtain ⟨step, -, heq⟩ := hsteps.exists_step hnames
      rw [show names = _ from heq]
      exact nodup_eraseDups

end Resolution

section Requests

variable {V : Type} (dunder_name : V → Option String)

/-- `configured_names` of a limiter. -/
def configured_names (self : Limiter) : Finset String :=
  (self.route_limits.keys ++ self.route_policies.keys).toFinset

/-- The handler names of a request to an application with a limiter. -/
def get_handler_names (routes : List (Route V)) (scope : Scope V) (path : String) (limiter : Limiter) :
    List String :=
  find_configured_handler_names dunder_name routes scope path (configured_names limiter)

variable {dunder_name}

/-- Every handler name of a request has a limit or a policy. -/
theorem configured_of_mem_get_handler_names {routes : List (Route V)} {scope : Scope V} {path : String}
    {limiter : Limiter} {handler_name : String}
    (hname : handler_name ∈ get_handler_names dunder_name routes scope path limiter) :
    (limiter.get_limit handler_name).isSome ∨ handler_name ∈ limiter.route_policies.keys := by
  have hconfigured := mem_configured_of_mem_find hname
  rw [configured_names, List.mem_toFinset, List.mem_append] at hconfigured
  apply hconfigured.imp_left
  intro hlimit
  exact Option.isSome_iff_exists.mpr (OrderedDict.mem_keys_iff.mp hlimit)

end Requests

/-- A route that matches every scope. Its endpoint is the text of its name. -/
def visited (name : String) : Route String :=
  ⟨some (fun _ => (.FULL, OrderedDict.empty.set "endpoint" name)), none, none, some ("/" ++ name), []⟩

/-- A policy of a shadowed route does not apply. -/
theorem shadowed_resolution :
    find_configured_handler_names some [visited "actual", visited "shadowed"] .empty "/" {"shadowed"} = [] := by
  have hagree : Agree .empty [visited "actual"] [visited "actual", visited "shadowed"] :=
    .take ⟨_, rfl, rfl⟩ (.nil _)
  exact ((route_resolution [visited "actual"] .empty).2.1 _ hagree).trans (by decide +kernel)

end response_bandwidth_limiter.routing
