import AliasGate.Proofs.Route

/-!
# The table of routes

Paths are read by their segments. Here the same reading is told by a table of five patterns, each of
which is tried on the whole path by greedy search, and the first that matches wins.

* `Route.search?`: the search of a pattern, which takes the longest run of characters first and goes
  back to shorter ones when the rest does not match.
* `Route.all`: the table.
* `Route.search?_eq_some_iff`: a route of the table matches the paths that lead to its resource, and
  gives the parts that these paths name.
* `Route.paths_grammar`: no path matches two routes, so that in any order the table reads what
  `Target.ofPath?` reads, and these are the paths of targets with their endings.
-/

namespace AliasGate

namespace Route

open Http (RouteParams)

/-! ## Patterns -/

/-- The parts of a path that have a name. -/
inductive Part where
  | user
  | image
  | id
  deriving DecidableEq, Repr

/-- A piece of a pattern: a fixed text, a part with at least one character, or a slash that may be
there or not. -/
inductive Piece where
  | text (s : Text)
  | part (p : Part)
  | slash
  deriving DecidableEq, Repr

namespace Part

/-- The characters of a part. -/
def accepts : Part → Char → Bool
  | user, c | image, c => c != '/'
  | id, c => Target.isIdChar c

/-- Gives a part its value. -/
def put (p : Part) (s : Text) (q : RouteParams) : RouteParams :=
  match p with
  | user => { q with user := some s }
  | image => { q with image := some s }
  | id => { q with id := some s }

end Part

/-- The beginnings of a text with at least one character, all of which satisfy `p`, with what is
left behind each; the longest comes first. -/
def runs (p : Char → Bool) : Text → List (Text × Text)
  | [] => []
  | c :: s => if p c = true then (runs p s).map (fun r => (c :: r.1, r.2)) ++ [([c], s)] else []

/-- The parts that a pattern finds in a whole text, behind which a line feed may stand. -/
def search? : List Piece → Text → Option RouteParams
  | [], s => if s = [] ∨ s = ['\n'] then some {} else none
  | .text t :: pieces, s => (Text.after? t s).bind (search? pieces)
  | .slash :: pieces, s =>
    match (Text.after? ['/'] s).bind (search? pieces) with
    | some q => some q
    | none => search? pieces s
  | .part p :: pieces, s =>
    (runs p.accepts s).findSome? fun r => (search? pieces r.2).map (p.put r.1)

end Route

/-- A resource and the pattern of the paths that lead to it. -/
structure Route where
  resource : Resource
  pattern : List Route.Piece
  deriving DecidableEq, Repr

namespace Route

open Http (RouteParams)

/-- The pattern of the paths that lead to a resource. -/
def patternOf : Resource → List Piece
  | .status => [.text "/status".toList, .slash]
  | .user => [.text "/users/".toList, .part .user, .slash]
  | .shortUrls =>
    [.text "/users/".toList, .part .user, .text "/images/".toList, .part .image,
      .text "/shortUrls".toList, .slash]
  | .shortUrl =>
    [.text "/users/".toList, .part .user, .text "/images/".toList, .part .image,
      .text "/shortUrls/".toList, .part .id]
  | .globalShortUrl => [.text "/s/".toList, .part .id]

/-- The table of routes. -/
def all : List Route := Resource.all.map fun resource => ⟨resource, patternOf resource⟩

/-- What the first route of a table that matches leads to. -/
def first? (table : List Route) (path : Text) : Option (Resource × RouteParams) :=
  table.findSome? fun route => (search? route.pattern path).map (route.resource, ·)

/-! ## Runs -/

section
variable {p : Char → Bool} {x s : Text}

theorem of_mem_runs {r : Text × Text} (h : r ∈ runs p s) :
    s = r.1 ++ r.2 ∧ r.1 ≠ [] ∧ ∀ c ∈ r.1, p c = true := by
  induction s generalizing r with
  | nil => cases h
  | cons c s ih =>
    unfold runs at h
    split at h
    next hc =>
      rcases List.mem_append.mp h with h | h
      · obtain ⟨r, hr, rfl⟩ := List.mem_map.mp h
        obtain ⟨rfl, -, hall⟩ := ih hr
        exact ⟨rfl, List.cons_ne_nil _ _, List.forall_mem_cons.mpr ⟨hc, hall⟩⟩
      · obtain rfl := List.mem_singleton.mp h
        simpa using hc
    next => cases h

/-- The run that goes on as far as possible comes first. -/
theorem runs_append (hx : x ≠ []) (hall : ∀ c ∈ x, p c = true) (rest : Text)
    (hstop : ∀ c s, rest = c :: s → p c = false) :
    ∃ shorter, runs p (x ++ rest) = (x, rest) :: shorter := by
  induction x with
  | nil => exact absurd rfl hx
  | cons c x ih =>
    obtain ⟨hc, hall⟩ := List.forall_mem_cons.mp hall
    by_cases hx : x = []
    · subst hx
      have hrest : runs p rest = [] := by
        cases rest with
        | nil => rfl
        | cons c s => simp [runs, hstop c s rfl]
      exact ⟨[], by simp [runs, hc, hrest]⟩
    · obtain ⟨shorter, hruns⟩ := ih hx hall
      exact ⟨_, by simp only [List.cons_append, runs, hc, ↓reduceIte, hruns, List.map_cons]; rfl⟩

end

/-! ## Pieces -/

/-- A value that a part may have. -/
def Part.Fits (p : Part) (x : Text) : Prop := x ≠ [] ∧ ∀ c ∈ x, p.accepts c = true

theorem Part.fits_user {x : Text} : user.Fits x ↔ Target.IsSegment x := by
  unfold Fits Target.IsSegment accepts
  grind

theorem Part.fits_image {x : Text} : image.Fits x ↔ Target.IsSegment x := Part.fits_user

theorem Part.fits_id {x : Text} : id.Fits x ↔ Target.isId x = true := Target.isId_iff.symm

section
variable {p : Part} {pieces : List Piece} {s t : Text} {q : RouteParams}

theorem search?_nil : search? [] s = some q ↔ s ∈ [[], ['\n']] ∧ q = {} := by
  simp [search?, eq_comm]

theorem search?_text : search? (.text t :: pieces) s = some q ↔
    ∃ rest, s = t ++ rest ∧ search? pieces rest = some q := by
  simp [search?, Option.bind_eq_some_iff, Text.after?_eq_some_iff]

theorem search?_slash : search? [.slash] s = some q ↔
    s ∈ [[], ['/'], ['\n'], ['/', '\n']] ∧ q = {} := by
  cases s with
  | nil =>
    rw [show search? [.slash] [] = search? [] [] from rfl, search?_nil]
    simp
  | cons c s =>
    by_cases hc : c = '/'
    · subst hc
      have hrest : search? [.slash] ('/' :: s) = search? [] s := by
        by_cases hs : s = [] ∨ s = ['\n'] <;> simp [search?, Text.after?, hs]
      rw [hrest, search?_nil]
      simp
    · have hrest : search? [.slash] (c :: s) = search? [] (c :: s) := by
        simp [search?, Text.after?, Ne.symm hc]
      rw [hrest, search?_nil]
      simp [hc]

/-- A part is as long as it can be where no other length leaves a rest that matches. -/
theorem search?_part (hstop : ∀ c rest, (search? pieces (c :: rest)).isSome → p.accepts c = false) :
    search? (.part p :: pieces) s = some q ↔
      ∃ x rest q', p.Fits x ∧ s = x ++ rest ∧ search? pieces rest = some q' ∧ q = p.put x q' := by
  constructor
  · intro h
    obtain ⟨⟨x, rest⟩, hmem, hsome⟩ := List.exists_of_findSome?_eq_some h
    obtain ⟨hs, hx⟩ := of_mem_runs hmem
    obtain ⟨q', hq', rfl⟩ := Option.map_eq_some_iff.mp hsome
    exact ⟨x, rest, q', hx, hs, hq', rfl⟩
  · rintro ⟨x, rest, q', hx, rfl, hrest, rfl⟩
    have hbehind : ∀ c s, rest = c :: s → p.accepts c = false := by
      rintro c s rfl
      exact hstop c s (Option.isSome_of_eq_some hrest)
    obtain ⟨shorter, hruns⟩ := runs_append hx.1 hx.2 rest hbehind
    rw [search?, hruns]
    simp [hrest]

/-- Behind a user only a slash may stand before the line feed: any other line feed is the user's. -/
theorem search?_user_slash : search? [.part .user, .slash] s = some q ↔
    ∃ x e, Part.user.Fits x ∧ s = x ++ e ∧ e ∈ [[], ['/'], ['/', '\n']] ∧
      q = { user := some x } := by
  constructor
  · intro h
    obtain ⟨⟨x, e⟩, hmem, hsome⟩ := List.exists_of_findSome?_eq_some h
    obtain ⟨rfl, hx⟩ := of_mem_runs hmem
    obtain ⟨q', hq', rfl⟩ := Option.map_eq_some_iff.mp hsome
    obtain ⟨he, rfl⟩ := search?_slash.mp hq'
    by_cases hline : e = ['\n']
    · -- the longer run with the line feed was found first
      subst hline
      have hall : Part.user.Fits (x ++ ['\n']) :=
        ⟨by simp, fun c hc => (List.mem_append.mp hc).elim (hx.2 c) fun hc =>
          List.mem_singleton.mp hc ▸ rfl⟩
      obtain ⟨shorter, hruns⟩ := runs_append hall.1 hall.2 [] nofun
      rw [List.append_nil] at hruns
      refine ⟨x ++ ['\n'], [], hall, by simp, by simp, ?_⟩
      simpa [search?, hruns, Text.after?, Part.put] using h.symm
    · exact ⟨x, e, hx, rfl, by grind, rfl⟩
  · rintro ⟨x, e, hx, rfl, he, rfl⟩
    have hstop : ∀ c s, e = c :: s → Part.user.accepts c = false := by
      rintro c s rfl
      have hc : c = '/' := by grind
      subst hc
      rfl
    obtain ⟨shorter, hruns⟩ := runs_append hx.1 hx.2 e hstop
    have hrest : search? [.slash] e = some {} := search?_slash.mpr ⟨by grind, rfl⟩
    rw [search?, hruns]
    simp [hrest, Part.put]

theorem stops_text {c : Char} (ht : t.head? = some c) (hc : p.accepts c = false) (d : Char)
    (rest : Text) (h : (search? (.text t :: pieces) (d :: rest)).isSome) :
    p.accepts d = false := by
  obtain ⟨q, hq⟩ := Option.isSome_iff_exists.mp h
  obtain ⟨rest', hrest, -⟩ := search?_text.mp hq
  cases t with
  | nil => cases ht
  | cons c' t =>
    cases ht
    cases hrest
    exact hc

theorem stops_end (c : Char) (rest : Text) (h : (search? [] (c :: rest)).isSome) :
    Part.id.accepts c = false := by
  obtain ⟨q, hq⟩ := Option.isSome_iff_exists.mp h
  obtain ⟨hend, -⟩ := search?_nil.mp hq
  obtain ⟨rfl, -⟩ : c = '\n' ∧ rest = [] := by simpa using hend
  decide

end

/-! ## Rows -/

section
variable {path : Text} {q : RouteParams}

/-- The path is that of a target of this resource with these parts, up to an ending. -/
def Leads (path : Text) (resource : Resource) (q : RouteParams) : Prop :=
  ∃ t : Target, t.resource = resource ∧ t.params = q ∧ t.IsNamed ∧
    ∃ e ∈ t.endings, path = t.path ++ e

theorem search?_status : search? (patternOf .status) path = some q ↔ Leads path .status q := by
  simp only [patternOf, search?_text, search?_slash]
  constructor
  · rintro ⟨e, rfl, he, rfl⟩
    exact ⟨.status, rfl, rfl, trivial, e, he, rfl⟩
  · rintro ⟨t, ht, rfl, -, e, he, rfl⟩
    cases t with
    | status => exact ⟨e, rfl, he, rfl⟩
    | _ => cases ht

theorem search?_user : search? (patternOf .user) path = some q ↔ Leads path .user q := by
  simp only [patternOf, search?_text, search?_user_slash, Part.fits_user]
  constructor
  · rintro ⟨_, rfl, u, e, hu, rfl, he, rfl⟩
    exact ⟨.user u, rfl, rfl, hu, e, he, by simp [Target.path, Target.segments]⟩
  · rintro ⟨t, ht, rfl, hnamed, e, he, rfl⟩
    cases t with
    | user u =>
      exact ⟨u ++ e, by simp [Target.path, Target.segments], u, e, hnamed, rfl, he, rfl⟩
    | _ => cases ht

/-- The beginning that two patterns share: a user and an image. -/
theorem search?_image (t : Text) (ht : t.head? = some '/') {pieces : List Piece} :
    search? (.text "/users/".toList :: .part .user :: .text "/images/".toList :: .part .image ::
      .text t :: pieces) path = some q ↔
    ∃ u i rest q', Target.IsSegment u ∧ Target.IsSegment i ∧
      path = "/users/".toList ++ (u ++ ("/images/".toList ++ (i ++ (t ++ rest)))) ∧
      search? pieces rest = some q' ∧ q = { q' with user := some u, image := some i } := by
  have huser : "/images/".toList.head? = some '/' := rfl
  simp only [search?_text, search?_part (stops_text (p := .user) huser rfl),
    search?_part (stops_text (p := .image) ht rfl), Part.fits_user, Part.fits_image]
  constructor
  · rintro ⟨_, rfl, u, _, _, hu, rfl, ⟨_, rfl, i, _, q', hi, rfl, ⟨rest, rfl, hrest⟩, rfl⟩, rfl⟩
    exact ⟨u, i, rest, q', hu, hi, rfl, hrest, rfl⟩
  · rintro ⟨u, i, rest, q', hu, hi, rfl, hrest, rfl⟩
    exact ⟨_, rfl, u, _, _, hu, rfl, ⟨_, rfl, i, _, q', hi, rfl, ⟨rest, rfl, hrest⟩, rfl⟩, rfl⟩

theorem search?_shortUrls :
    search? (patternOf .shortUrls) path = some q ↔ Leads path .shortUrls q := by
  simp only [patternOf, search?_image "/shortUrls".toList rfl, search?_slash]
  constructor
  · rintro ⟨u, i, e, _, hu, hi, rfl, ⟨he, rfl⟩, rfl⟩
    exact ⟨.shortUrls u i, rfl, rfl, ⟨hu, hi⟩, e, he, by simp [Target.path, Target.segments]⟩
  · rintro ⟨t, ht, rfl, hnamed, e, he, rfl⟩
    cases t with
    | shortUrls u i =>
      exact ⟨u, i, e, {}, hnamed.1, hnamed.2, by simp [Target.path, Target.segments], ⟨he, rfl⟩,
        rfl⟩
    | _ => cases ht

/-- The end that two patterns share: an id. -/
theorem search?_id : search? [.part .id] path = some q ↔
    ∃ id e, Target.isId id = true ∧ e ∈ [[], ['\n']] ∧ path = id ++ e ∧ q = { id := some id } := by
  rw [search?_part stops_end]
  simp only [Part.fits_id, search?_nil]
  constructor
  · rintro ⟨id, e, _, hid, rfl, ⟨he, rfl⟩, rfl⟩
    exact ⟨id, e, hid, he, rfl, rfl⟩
  · rintro ⟨id, e, hid, he, rfl, rfl⟩
    exact ⟨id, e, {}, hid, rfl, ⟨he, rfl⟩, rfl⟩

theorem search?_shortUrl :
    search? (patternOf .shortUrl) path = some q ↔ Leads path .shortUrl q := by
  simp only [patternOf, search?_image "/shortUrls/".toList rfl, search?_id]
  constructor
  · rintro ⟨u, i, _, _, hu, hi, rfl, ⟨id, e, hid, he, rfl, rfl⟩, rfl⟩
    exact ⟨.shortUrl u i id, rfl, rfl, ⟨hu, hi, hid⟩, e, he,
      by simp [Target.path, Target.segments]⟩
  · rintro ⟨t, ht, rfl, hnamed, e, he, rfl⟩
    cases t with
    | shortUrl u i id =>
      obtain ⟨hu, hi, hid⟩ := hnamed
      exact ⟨u, i, id ++ e, { id := some id }, hu, hi, by simp [Target.path, Target.segments],
        ⟨id, e, hid, he, rfl, rfl⟩, rfl⟩
    | _ => cases ht

theorem search?_globalShortUrl :
    search? (patternOf .globalShortUrl) path = some q ↔ Leads path .globalShortUrl q := by
  simp only [patternOf, search?_text, search?_id]
  constructor
  · rintro ⟨_, rfl, id, e, hid, he, rfl, rfl⟩
    exact ⟨.globalShortUrl id, rfl, rfl, hid, e, he, by simp [Target.path, Target.segments]⟩
  · rintro ⟨t, ht, rfl, hid, e, he, rfl⟩
    cases t with
    | globalShortUrl id =>
      exact ⟨id ++ e, by simp [Target.path, Target.segments], id, e, hid, he, rfl, rfl⟩
    | _ => cases ht

/-- The pattern of a resource finds the parts of a target in the paths that lead to that target. -/
theorem search?_eq_some_iff {resource : Resource} : search? (patternOf resource) path = some q ↔
    ∃ t, Target.ofPath? path = some t ∧ t.resource = resource ∧ t.params = q := by
  have hleads : Leads path resource q ↔
      ∃ t, Target.ofPath? path = some t ∧ t.resource = resource ∧ t.params = q := by
    simp only [Leads, Target.ofPath?_eq_some_iff]
    grind
  rw [← hleads]
  cases resource with
  | status => exact search?_status
  | user => exact search?_user
  | shortUrls => exact search?_shortUrls
  | shortUrl => exact search?_shortUrl
  | globalShortUrl => exact search?_globalShortUrl

end

/-! ## Tables -/

section
variable {path : Text} {route : Route} {q : RouteParams}

/-- What a route of the table finds in a path is what the path leads to. -/
theorem of_search? (hroute : route ∈ all) (h : search? route.pattern path = some q) :
    ∃ t, Target.ofPath? path = some t ∧ t.resource = route.resource ∧ t.params = q := by
  obtain ⟨resource, -, rfl⟩ := List.mem_map.mp hroute
  exact search?_eq_some_iff.mp h

theorem mem_all (resource : Resource) : ⟨resource, patternOf resource⟩ ∈ all :=
  List.mem_map_of_mem (by cases resource <;> decide)

/-- In any order, the routes of the table read what is read from the segments of a path. -/
theorem first?_eq {table : List Route} (h : table.Perm all) (path : Text) :
    first? table path = (Target.ofPath? path).map fun t => (t.resource, t.params) := by
  have hfound : ∀ route ∈ table, ∀ found,
      (search? route.pattern path).map (route.resource, ·) = some found →
      (Target.ofPath? path).map (fun t => (t.resource, t.params)) = some found := by
    intro route hroute found hfound
    obtain ⟨q, hq, rfl⟩ := Option.map_eq_some_iff.mp hfound
    obtain ⟨t, ht, hresource, hparams⟩ := of_search? (h.mem_iff.mp hroute) hq
    simp [ht, hresource, hparams]
  cases hfirst : first? table path with
  | some found =>
    obtain ⟨route, hroute, hmatch⟩ := List.exists_of_findSome?_eq_some hfirst
    exact (hfound route hroute found hmatch).symm
  | none =>
    cases ht : Target.ofPath? path with
    | none => rfl
    | some t =>
      have hnone := List.findSome?_eq_none_iff.mp hfirst _ (h.mem_iff.mpr (mem_all t.resource))
      have hsome := search?_eq_some_iff.mpr ⟨t, ht, rfl, rfl⟩
      simp [hsome] at hnone

end

/-- **Grammar of paths.** Whatever a path is, no two routes of the table match it, so that the table
reads the same in any order; and it leads to a target just if its text is that target's path, users
and images being segments and ids letters and digits, with one of the target's endings. -/
theorem paths_grammar (path : Text) :
    (∀ route ∈ all, ∀ route' ∈ all, (search? route.pattern path).isSome →
      (search? route'.pattern path).isSome → route = route') ∧
    (∀ table : List Route, table.Perm all →
      first? table path = (Target.ofPath? path).map fun t => (t.resource, t.params)) ∧
    ∀ t : Target, Target.ofPath? path = some t ↔
      t.IsNamed ∧ ∃ e ∈ t.endings, path = t.path ++ e := by
  refine ⟨fun route hroute route' hroute' h h' => ?_, fun table htable => first?_eq htable path,
    fun t => Target.ofPath?_eq_some_iff⟩
  obtain ⟨q, hq⟩ := Option.isSome_iff_exists.mp h
  obtain ⟨q', hq'⟩ := Option.isSome_iff_exists.mp h'
  obtain ⟨t, ht, hresource, -⟩ := of_search? hroute hq
  obtain ⟨t', ht', hresource', -⟩ := of_search? hroute' hq'
  obtain rfl : t = t' := Option.some.inj (ht.symm.trans ht')
  obtain ⟨resource, -, rfl⟩ := List.mem_map.mp hroute
  obtain ⟨resource', -, rfl⟩ := List.mem_map.mp hroute'
  obtain rfl : resource = resource' := hresource.symm.trans hresource'
  rfl

/-- Words of the templates may be users, images and ids, and line feeds users. -/
theorem paths_grammar_words :
    let path := "/users/\n/images/shortUrls/shortUrls/users\n".toList
    (∀ route ∈ all, (search? route.pattern path).isSome →
      route = ⟨.shortUrl, patternOf .shortUrl⟩) ∧
    first? all.reverse path = some (.shortUrl,
      { user := some ['\n'], image := some "shortUrls".toList, id := some "users".toList }) ∧
    Target.ofPath? path = some (.shortUrl ['\n'] "shortUrls".toList "users".toList) := by
  intro path
  obtain ⟨hone, hany, hgrammar⟩ := paths_grammar path
  have hpath : Target.ofPath? path = some (.shortUrl ['\n'] "shortUrls".toList "users".toList) :=
    (hgrammar _).mpr ⟨⟨⟨by decide, by decide⟩, ⟨by decide, by decide⟩, by decide⟩, ['\n'],
      by decide, by decide⟩
  refine ⟨fun route hroute h => hone route hroute _ (mem_all .shortUrl) h (by decide), ?_, hpath⟩
  rw [hany _ (List.reverse_perm all), hpath]
  rfl

end Route

end AliasGate
