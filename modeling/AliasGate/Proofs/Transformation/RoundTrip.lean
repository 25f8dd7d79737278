import AliasGate.Proofs.Http.Request
import AliasGate.Proofs.Keyed
import AliasGate.Proofs.Query.Spelling
import AliasGate.Proofs.Transformation.Exemption

/-!
# Transformations written into a query

What a value is read as, and what a query is read as that carries such values among other arguments.

* `Transformation.IsWritable`: the separators do not get in each other's way.
* `Transformation.ofValue_render`: such a transformation is read back from its value.
* `Transformation.Carries fs ts`: the fields of a query that carry transformations, each under one
  of the names that ask for one, among others.
* `Transformation.Strays f`: the argument asks although its name is none of those, because a line
  feed ends it.
* `Transformation.Carries.read`: all that the query asks for.
* `Http.Request.transformations_eq_iff`: it asks for the transformations that it carries exactly if
  no argument strays.
-/

namespace AliasGate

namespace Transformation

/-! ## One value -/

/-- The name ends at the first colon, a parameter at the next comma, its key at the first equals
sign; no key stands twice, and there is something to write. -/
structure IsWritable (t : Transformation) : Prop where
  name : ':' ∉ t.name
  keys : ∀ param ∈ t.params, ',' ∉ param.1 ∧ '=' ∉ param.1
  values : ∀ param ∈ t.params, ',' ∉ param.2
  nodup : t.params.keys.Nodup
  nonempty : t.render ≠ []

theorem comma_not_mem_renderParam {param : Text × Text} (hkey : ',' ∉ param.1)
    (hvalue : ',' ∉ param.2) : ',' ∉ renderParam param := by
  simp [renderParam, hkey, hvalue]

theorem renderParam_ne_nil (param : Text × Text) : renderParam param ≠ [] :=
  List.append_ne_nil_of_right_ne_nil _ (List.cons_ne_nil _ _)

/-- Parameters that were written are read back in order. -/
theorem paramsOf_joined {params : List (Text × Text)} (hne : params ≠ [])
    (hkeys : ∀ param ∈ params, ',' ∉ param.1 ∧ '=' ∉ param.1)
    (hvalues : ∀ param ∈ params, ',' ∉ param.2) (hnodup : (Keyed.keys params).Nodup) :
    paramsOf (Text.joined [','] (params.map renderParam)) = params := by
  have hcomma : ∀ f ∈ params.map renderParam, ',' ∉ f := by
    intro f hf
    obtain ⟨param, hparam, rfl⟩ := List.mem_map.mp hf
    exact comma_not_mem_renderParam (hkeys param hparam).1 (hvalues param hparam)
  have hfilled : (params.map renderParam).filter (· ≠ []) = params.map renderParam := by
    refine List.filter_eq_self.mpr fun f hf => ?_
    obtain ⟨param, -, rfl⟩ := List.mem_map.mp hf
    exact decide_eq_true (renderParam_ne_nil param)
  have hcut : ∀ param ∈ params,
      ((Text.cut '=' (renderParam param)).1, (Text.cut '=' (renderParam param)).2.getD []) =
        param := by
    intro param hparam
    rw [renderParam, Text.cut_append (hkeys param hparam).2]
    rfl
  rw [paramsOf, Text.fields_joined hcomma (mt List.map_eq_nil_iff.mp hne), hfilled, List.map_map]
  have hmap := (List.map_congr_left hcut).trans (List.map_id params)
  exact (congrArg Keyed.ofPairs hmap).trans (Keyed.ofPairs_of_nodup hnodup)

theorem ofValue_render {t : Transformation} (h : t.IsWritable) : ofValue t.render = t := by
  obtain ⟨name, params⟩ := t
  cases params with
  | nil =>
    rw [render, ofValue, Text.cut_of_not_mem h.name]
    rfl
  | cons param params =>
    rw [render, ofValue, Text.cut_append h.name]
    exact congrArg (Transformation.mk name)
      (paramsOf_joined (List.cons_ne_nil _ _) h.keys h.values h.nodup)

/-! ## Queries -/

/-- The fields carry the transformations in order. One of them is carried by a field whose name is
written for `t`, `t[]` or `t[3]` and whose value is written for the value that describes it; the
other fields have names that are read as something else. -/
inductive Carries : List Text → List Transformation → Prop
  | nil : Carries [] []
  | asks {key name value : Text} {t : Transformation} {fs : List Text} {ts : List Transformation}
    (hkey : KeyForm key) (hname : Percent.Spells ['&', '='] name key)
    (hvalue : Percent.Spells ['&'] value t.render) (h : Carries fs ts) :
    Carries ((name ++ '=' :: value) :: fs) (t :: ts)
  | other {f : Text} {fs : List Text} {ts : List Transformation} (hfield : '&' ∉ f)
    (hname : ¬KeyForm (Query.read f).1) (h : Carries fs ts) : Carries (f :: fs) ts

/-- An argument with a value whose name is `t`, `t[]` or `t[3]` but for a line feed at its end. -/
def Strays (f : Text) : Prop :=
  (∃ form, KeyForm form ∧ (Query.read f).1 = form ++ ['\n']) ∧ (Query.read f).2 ≠ []

theorem ofQuery_cons (pair : Text × Text) (pairs : List (Text × Text)) :
    ofQuery (pair :: pairs) =
      if isKey pair.1 && pair.2 != [] then ofValue pair.2 :: ofQuery pairs else ofQuery pairs := by
  unfold ofQuery
  rw [List.filter_cons]
  split <;> rfl

/-- Arguments without anything in them ask for nothing. -/
theorem ofQuery_filled (fs : List Text) :
    ofQuery ((Query.filled fs).map Query.read) = ofQuery (fs.map Query.read) := by
  induction fs with
  | nil => rfl
  | cons f fs ih =>
    rw [List.map_cons, ofQuery_cons, ← ih, Query.filled, List.filter_cons]
    cases f with
    | nil => rfl
    | cons c f =>
      rw [if_pos (decide_eq_true (List.cons_ne_nil c f)), List.map_cons, ofQuery_cons]
      rfl

/-- A field that carries a transformation asks for it. -/
theorem ofQuery_asks {key name value : Text} {t : Transformation} (ht : t.IsWritable)
    (hkey : KeyForm key) (hname : Percent.Spells ['&', '='] name key)
    (hvalue : Percent.Spells ['&'] value t.render) (pairs : List (Text × Text)) :
    ofQuery (Query.read (name ++ '=' :: value) :: pairs) = t :: ofQuery pairs := by
  have hequals : '=' ∉ name := hname.not_mem (by decide) rfl (by decide) (by decide)
  rw [Query.read_value hequals, hname.decodeForm_eq, hvalue.decodeForm_eq, ofQuery_cons,
    isKey_iff.mpr ⟨key, hkey, .inl rfl⟩, Bool.true_and, if_pos (bne_iff_ne.mpr ht.nonempty),
    ofValue_render ht]

/-- A field of another name asks for something exactly if it strays. -/
theorem asks_iff_strays {f : Text} (hname : ¬KeyForm (Query.read f).1) :
    (isKey (Query.read f).1 && (Query.read f).2 != []) = true ↔ Strays f := by
  rw [Bool.and_eq_true, bne_iff_ne, isKey_iff]
  refine and_congr_left fun _ => ⟨?_, fun ⟨form, h, hform⟩ => ⟨form, h, .inr hform⟩⟩
  rintro ⟨form, h, hform | hform⟩
  · exact absurd (hform ▸ h) hname
  · exact ⟨form, h, hform⟩

/-- A field that carries a transformation does not stray: no name that asks ends in a line feed. -/
theorem not_strays_of_asks {key name value : Text} (hkey : KeyForm key)
    (hname : Percent.Spells ['&', '='] name key) : ¬Strays (name ++ '=' :: value) := by
  rintro ⟨⟨form, -, hform⟩, -⟩
  have hequals : '=' ∉ name := hname.not_mem (by decide) rfl (by decide) (by decide)
  rw [Query.read_value hequals, hname.decodeForm_eq] at hform
  have hlast : key.getLast? = some '\n' := by
    rw [show key = form ++ ['\n'] from hform, List.getLast?_concat]
  cases hkey with
  | plain => exact absurd hlast (by decide)
  | bracketed digits _ =>
    rw [List.getLast?_concat] at hlast
    exact absurd hlast (by decide)

/-- What a query asks for are the transformations that it carries, and one more for each field that
strays. -/
theorem Carries.read {fs : List Text} {ts : List Transformation} (h : Carries fs ts)
    (hts : ∀ t ∈ ts, t.IsWritable) :
    ts.Sublist (ofQuery (fs.map Query.read)) ∧
      (ofQuery (fs.map Query.read) = ts ↔ ∀ f ∈ fs, ¬Strays f) := by
  induction h with
  | nil => simp [ofQuery]
  | asks hkey hname hvalue h ih =>
    obtain ⟨hsub, hiff⟩ := ih fun t ht => hts t (List.mem_cons_of_mem _ ht)
    rw [List.map_cons, ofQuery_asks (hts _ List.mem_cons_self) hkey hname hvalue]
    refine ⟨hsub.cons_cons _, ?_⟩
    rw [List.cons.injEq, hiff, List.forall_mem_cons]
    simp only [true_and, not_strays_of_asks hkey hname, not_false_eq_true]
  | @other f fs ts hfield hname h ih =>
    obtain ⟨hsub, hiff⟩ := ih hts
    rw [List.map_cons, ofQuery_cons, List.forall_mem_cons, ← asks_iff_strays hname]
    split
    next hasks =>
      refine ⟨hsub.cons _, iff_of_false (fun heq => ?_) fun hno => hno.1 hasks⟩
      have hlength := congrArg List.length heq
      have hle := hsub.length_le
      rw [List.length_cons] at hlength
      omega
    next hasks => exact ⟨hsub, by rw [hiff]; exact (and_iff_right hasks).symm⟩

theorem Carries.ampersand_not_mem {fs : List Text} {ts : List Transformation} (h : Carries fs ts) :
    ∀ f ∈ fs, '&' ∉ f := by
  induction h with
  | nil => exact fun f hf => absurd hf List.not_mem_nil
  | asks hkey hname hvalue h ih =>
    have hname' := hname.not_mem (c := '&') (by decide) rfl (by decide) (by decide)
    have hvalue' := hvalue.not_mem (c := '&') (by decide) rfl (by decide) (by decide)
    exact List.forall_mem_cons.mpr ⟨by simp [hname', hvalue'], ih⟩
  | other hfield hname h ih => exact List.forall_mem_cons.mpr ⟨hfield, ih⟩

end Transformation

namespace Http.Request

open Transformation

/-- **Round trip of transformations.** A query that `Carries` writable transformations is read as
these, in order, perhaps with others between them; with none exactly if no field `Strays`. -/
theorem transformations_eq_iff {r : Request} {fs : List Text} {ts : List Transformation}
    (hts : ∀ t ∈ ts, t.IsWritable) (hfs : Carries fs ts) (hquery : r.query = Text.joined ['&'] fs) :
    ts.Sublist r.transformations ∧ (r.transformations = ts ↔ ∀ f ∈ fs, ¬Strays f) := by
  have hread : r.transformations = ofQuery (fs.map Query.read) := by
    rw [transformations, queryPairs, hquery, Query.form_eq,
      Query.filled_fields_joined hfs.ampersand_not_mem, ofQuery_filled]
  rw [hread]
  exact hfs.read hts

/-- A request for an image with a query. -/
def ordering (query : Text) : Http.Request :=
  ⟨"GET".toList, "http".toList, "imbo".toList, "/users/christer".toList, query, [],
    { user := some "christer".toList }, [], 970⟩

/-- Separators where they do no harm, an empty key and an empty value. -/
def framed : Transformation :=
  ⟨"frame,=".toList, [("".toList, "a:b=".toList), ("fit é".toList, "".toList)]⟩

/-- A transformation without a name. -/
def nameless : Transformation := ⟨[], [("x".toList, "5".toList)]⟩

/-- The request asks for what it carries, once by encoded and once by plain text, under a name with a
number in it and one in escapes, beside an empty argument and one with a similar name. -/
theorem transformations_eq_iff_framed :
    (ordering (Text.joined ['&'] ["t[7]".toList ++ '=' :: Percent.encode framed.render, [],
        "tt[]=border".toList, ['%', '7', '4'] ++ '=' :: nameless.render])).transformations =
      [framed, nameless] := by
  have hframed : framed.IsWritable :=
    ⟨by decide, by decide, by decide, by decide, by decide⟩
  have hnameless : nameless.IsWritable :=
    ⟨by decide, by decide, by decide, by decide, by decide⟩
  have hts : ∀ t ∈ [framed, nameless], t.IsWritable :=
    List.forall_mem_cons.mpr ⟨hframed, List.forall_mem_singleton.mpr hnameless⟩
  have hkey : KeyForm "t[7]".toList := isPlainKey_iff.mp (by decide)
  have hstray : ∀ f : Text, isKey (Query.read f).1 = false → ¬KeyForm (Query.read f).1 ∧ ¬Strays f :=
    fun f h => ⟨fun hform => Bool.false_ne_true (h.symm.trans (isKey_iff.mpr ⟨_, hform, .inl rfl⟩)),
      fun ⟨⟨form, hform, hf⟩, _⟩ =>
        Bool.false_ne_true (h.symm.trans (isKey_iff.mpr ⟨form, hform, .inr hf⟩))⟩
  have hempty := hstray [] (by decide)
  have hsimilar := hstray "tt[]=border".toList (by decide +kernel)
  have hbytes : String.utf8EncodeChar 't' = [UInt8.ofNat (7 * 16 + 4)] := by decide
  have hescaped : Percent.Spells ['&', '='] ['%', '7', '4'] ['t'] :=
    Percent.spells_escapes (hbytes ▸ .cons rfl rfl .nil)
  have hnumbered : Percent.Spells ['&', '='] "t[7]".toList "t[7]".toList :=
    Percent.spells_self (Text.forall_mem_of_all (by decide))
  have hplain : Percent.Spells ['&'] nameless.render nameless.render :=
    Percent.spells_self (Text.forall_mem_of_all (by decide))
  have hfs := Carries.asks hkey hnumbered
    (Percent.spells_encode (Text.forall_mem_of_all (by decide)) framed.render)
    (.other (by decide) hempty.1 (.other (by decide) hsimilar.1
      (.asks .plain hescaped hplain .nil)))
  refine (transformations_eq_iff hts hfs rfl).2.mpr ?_
  simp only [List.forall_mem_cons]
  exact ⟨not_strays_of_asks hkey hnumbered, hempty.2, hsimilar.2,
    not_strays_of_asks .plain hescaped, fun f hf => absurd hf List.not_mem_nil⟩

/-- A name that is none of those is taken for one because a line feed ends it. -/
theorem transformations_strayed :
    ∃ (r : Request) (fs : List Text) (ts : List Transformation), (∀ t ∈ ts, t.IsWritable) ∧
      Carries fs ts ∧ r.query = Text.joined ['&'] fs ∧ r.transformations ≠ ts := by
  have hborder : IsWritable ⟨"border".toList, []⟩ :=
    ⟨by decide, by decide, by decide, by decide, by decide⟩
  have hkey : KeyForm "t[]".toList := isPlainKey_iff.mp (by decide)
  have hname : ¬KeyForm (Query.read "t%0A=crop".toList).1 :=
    fun h => absurd (isPlainKey_iff.mpr h) (by decide +kernel)
  refine ⟨ordering "t[]=border&t%0A=crop".toList, ["t[]=border".toList, "t%0A=crop".toList],
    [⟨"border".toList, []⟩], List.forall_mem_singleton.mpr hborder, ?_, rfl, by decide +kernel⟩
  have hnumbered : Percent.Spells ['&', '='] "t[]".toList "t[]".toList :=
    Percent.spells_self (Text.forall_mem_of_all (by decide))
  have hplain : Percent.Spells ['&'] "border".toList "border".toList :=
    Percent.spells_self (Text.forall_mem_of_all (by decide))
  exact Carries.asks hkey hnumbered hplain (.other (by decide) hname .nil)

end Http.Request

end AliasGate
