import MarkdownNodes.Proofs.Render.Progress
import MarkdownNodes.Proofs.Token.Place
import MarkdownNodes.Proofs.Token.Spot

/-! Which tokens are offered to their extensions, in which order, and in which mode. No token is offered
twice, whatever the rules do. Where all of them defer, the way of the rendering is that of the built-in
rules: every token of a forest without misfits is met, at the level that what holds it gives to it. -/

namespace MarkdownNodes

/-- The level at which the built-in rules render the tokens that are held. -/
def Holder.level : Holder → Level
  | .inline => .inline .primary
  | .blockquote => .block true
  | .item loose => .block loose

/-- The level of a token with the given holders in a forest that is rendered at a level: that which the
innermost of them gives to it. -/
def levelWithin (level : Level) : List Holder → Level
  | [] => level
  | holder :: _ => holder.level

/-- The mode of a token with the given holders, by the flag of the nearest item around it. -/
def Holder.itemMode : List Holder → Mode
  | .inline :: _ => .inline
  | holders => .block (Holder.itemFlag holders)

/-- The mode at a document's own level and below. A quote gives the top flag to what stands in it, also
where the nearest item has another. -/
theorem mode_levelWithin (holders : List Holder) :
    (levelWithin (.block true) holders).mode =
      if holders.head? = some .blockquote then .block true else Holder.itemMode holders := by
  rcases holders with _ | ⟨_ | _ | loose, holders⟩ <;> rfl

theorem Level.IsPrimary.within {level : Level} (h : level.IsPrimary) (holders : List Holder) :
    (levelWithin level holders).IsPrimary := by
  rcases holders with _ | ⟨_ | _ | _, _⟩
  · exact h
  all_goals trivial

/-- A token among the holders in a forest that is rendered at a level, at its own level. -/
def atLevel (level : Level) (s : List Holder × Token) : Level × Token := (levelWithin level s.1, s.2)

/-- Every rule leaves the tokens that it is called for to the built-in rule. -/
def Extensions.Defer (extensions : Extensions) : Prop :=
  ∀ kind rule, extensions.rule? kind = some rule → ∀ mode, rule.appliesIn mode = true → rule.action = .defer

namespace Renderer

/-! ### At most once -/

theorem map_token_calls (r : Renderer) (spots : List (Level × Token)) :
    (spots.filterMap fun s => r.extensions.call? s.1.mode s.2).map Call.token =
      (spots.map Prod.snd).filter fun t => (r.extensions.rule? t.kind).isSome := by
  induction spots with
  | nil => rfl
  | cons s spots ih =>
      rw [List.filterMap_cons, List.map_cons, List.filter_cons, ← ih, Extensions.call?]
      cases r.extensions.rule? s.2.kind <;> rfl

section Follows

variable {α : Type} {r : Renderer} {level : Level} {ts : List Token} {run : Run RenderError α}
  {errors : List RenderError}

/-- The tokens that are offered are among those of the forest, in document order. -/
theorem map_token_calls_sublist (h : run.Follows (r.callsOf level ts) errors) :
    (run.calls.map Call.token).Sublist (Token.allOf ts) := by
  have hcalls := h.prefix_calls.sublist.map Call.token
  rw [callsOf_eq, map_token_calls] at hcalls
  exact (hcalls.trans List.filter_sublist).trans (r.map_snd_visitsOf_sublist level ts)

/-- A call is that of the rule for its token's kind. -/
theorem call?_of_mem_calls (h : run.Follows (r.callsOf level ts) errors) {c : Call} (hc : c ∈ run.calls) :
    r.extensions.call? c.mode c.token = some c := by
  have hmem := h.prefix_calls.subset hc
  rw [callsOf_eq] at hmem
  obtain ⟨s, _, hs⟩ := List.mem_filterMap.mp hmem
  obtain ⟨rule, _, rfl⟩ := Option.map_eq_some_iff.mp hs
  exact hs

end Follows

/-! ### Deferring rules -/

section Defer

variable {r : Renderer}

theorem handling_of_defer (h : r.extensions.Defer) (mode : Mode) (t : Token) : r.handling mode t = .builtIn :=
  handling_eq_builtIn_iff.mpr fun rule hrule => h t.kind rule hrule mode

theorem recipe_eq_unknown_iff (htext : r.text = .nested) {level : Level} (hlevel : level.IsPrimary) (t : Token) :
    r.recipe level t = .unknown ↔ level.place.admits t = false := by
  rcases level with top | _ | _ | _
  case inline.bracketed | inline.plain => exact hlevel.elim
  all_goals
    rcases t with _ | _ | _ | _ | _ | _ | _ | _ | _ | _ | ⟨_, _, _ | _, _⟩ <;>
      simp [recipe, htext, Level.place, Place.admits]

/-- Where the rules defer, the tokens that a token holds are rendered next, at the levels it gives to them,
or if it may not stand where it does none of them. -/
theorem next_of_defer (h : r.extensions.Defer) (htext : r.text = .nested) {level : Level} (hlevel : level.IsPrimary)
    (t : Token) :
    r.next level t = if level.place.admits t then t.held.map fun s => (s.1.level, s.2) else [] := by
  rw [next, partsOf, handling_of_defer h, Handling.parts]
  rcases level with top | _ | _ | _
  case inline.bracketed | inline.plain => exact hlevel.elim
  all_goals
    rcases t with _ | _ | _ | _ | _ | _ | _ | _ | _ | _ | ⟨_, _, _ | _, _⟩ <;>
      simp [recipe, htext, Level.place, Place.admits, Part.levelled, Token.held, Token.inner, Token.children,
        Token.items, Token.header, Token.rows, Holder.level, List.map_flatMap, Function.comp_def]

theorem visits_sublist_spots (h : r.extensions.Defer) (htext : r.text = .nested) {level : Level}
    (hlevel : level.IsPrimary) (holders : List Holder) (t : Token) :
    (r.visits (levelWithin level holders) t).Sublist ((t.spots holders).map (atLevel level)) := by
  induction t using Token.induct generalizing holders with
  | step t ih =>
      have hheld : (t.held.flatMap fun s => r.visits s.1.level s.2).Sublist
          (t.held.flatMap fun s => (s.2.spots (s.1 :: holders)).map (atLevel level)) :=
        List.Sublist.flatMap_right t.held fun s hs => ih s.2 (Token.mem_inner_of_mem_held hs) (s.1 :: holders)
      rw [visits_eq, Token.spots_eq, next_of_defer h htext (hlevel.within holders), List.map_cons, List.map_flatMap]
      by_cases hadmits : (levelWithin level holders).place.admits t = true
      · rw [if_pos hadmits, List.flatMap_map]
        exact hheld.cons_cons _
      · rw [if_neg hadmits]
        exact (List.nil_sublist _).cons_cons _

/-- A token that raises nothing where nothing is silent may stand where it does. -/
theorem admits_of_fault?_eq_none (h : r.extensions.Defer) (htext : r.text = .nested) (hsilent : r.silent = false)
    {level : Level} (hlevel : level.IsPrimary) {t : Token} (hfault : r.fault? level t = none) :
    level.place.admits t = true := by
  by_contra hadmits
  have hrecipe := (recipe_eq_unknown_iff htext hlevel t).mpr (Bool.eq_false_iff.mpr hadmits)
  simp [fault?, handling_of_defer h, hrecipe, hsilent] at hfault

/-- Where the rules defer and there are no failures, every token is met. -/
theorem visits_eq_spots (h : r.extensions.Defer) (htext : r.text = .nested) (hsilent : r.silent = false)
    {level : Level} (hlevel : level.IsPrimary) (holders : List Holder) {t : Token}
    (hfailures : r.failures (levelWithin level holders) t = []) :
    r.visits (levelWithin level holders) t = (t.spots holders).map (atLevel level) := by
  induction t using Token.induct generalizing holders with
  | step t ih =>
      rw [failures_eq, List.append_eq_nil_iff] at hfailures
      obtain ⟨hown, hbelow⟩ := hfailures
      have hfault : r.fault? (levelWithin level holders) t = none := by simpa using hown
      have hadmits := admits_of_fault?_eq_none h htext hsilent (hlevel.within holders) hfault
      have hnext := next_of_defer h htext (hlevel.within holders) t
      rw [if_pos hadmits] at hnext
      rw [hnext, List.flatMap_map, List.flatMap_eq_nil_iff] at hbelow
      have hheld : (t.held.flatMap fun s => r.visits s.1.level s.2) =
          t.held.flatMap fun s => (s.2.spots (s.1 :: holders)).map (atLevel level) :=
        List.flatMap_congr fun s hs =>
          ih s.2 (Token.mem_inner_of_mem_held hs) (s.1 :: holders) (List.map_eq_nil_iff.mp (hbelow s hs))
      rw [visits_eq, Token.spots_eq, hnext, List.flatMap_map, hheld, List.map_cons, List.map_flatMap]
      rfl

theorem visitsOf_sublist_spotsOf (h : r.extensions.Defer) (htext : r.text = .nested) {level : Level}
    (hlevel : level.IsPrimary) (ts : List Token) :
    (r.visitsOf level ts).Sublist ((Token.spotsOf ts).map (atLevel level)) := by
  rw [visitsOf, Token.spotsOf, List.map_flatMap]
  exact List.Sublist.flatMap_right ts fun t _ => visits_sublist_spots h htext hlevel [] t

theorem visitsOf_eq_spotsOf (h : r.extensions.Defer) (htext : r.text = .nested) (hsilent : r.silent = false)
    {level : Level} (hlevel : level.IsPrimary) {ts : List Token} (hfailures : r.failuresOf level ts = []) :
    r.visitsOf level ts = (Token.spotsOf ts).map (atLevel level) := by
  rw [visitsOf, Token.spotsOf, List.map_flatMap]
  exact List.flatMap_congr fun t ht =>
    visits_eq_spots h htext hsilent hlevel [] (List.flatMap_eq_nil_iff.mp hfailures t ht)

end Defer

theorem failuresOf_eq_nil_of_ok {r : Renderer} {level : Level} {ts : List Token} {nodes : List Node}
    (h : (r.renderTokens level ts).outcome = .ok nodes) : r.failuresOf level ts = [] := by
  have hraised := (r.renderTokens_proceeds level ts).errors_eq_nil h
  rw [raisedOf_eq] at hraised
  exact List.map_eq_nil_iff.mp hraised

/-- A rendering that succeeds has made the calls of all the tokens on its way. -/
theorem calls_eq_of_ok {r : Renderer} {level : Level} {ts : List Token} {nodes : List Node}
    (h : (r.renderTokens level ts).outcome = .ok nodes) : (r.renderTokens level ts).calls = r.callsOf level ts :=
  have hfollows := r.renderTokens_proceeds level ts
  hfollows.calls_eq (hfollows.errors_eq_nil h)

/-! ### All renderings -/

/-- In every rendering the tokens that are offered to their extensions are tokens of the forest in document
order, each at most once, and each is offered to the rule for its kind. Where the rules defer, and a strict
rendering of blocks by the built-in rules succeeds, they are all the tokens with a rule, and each is met in
the mode that its innermost holder gives to it. -/
theorem offered_once_in_order (r : Renderer) (ts : List Token) :
    (∀ level, ((r.renderTokens level ts).calls.map Call.token).Sublist (Token.allOf ts) ∧
      ∀ c ∈ (r.renderTokens level ts).calls, r.extensions.call? c.mode c.token = some c) ∧
    (((r.bareText ts).calls.map Call.token).Sublist (Token.allOf ts) ∧
      ∀ c ∈ (r.bareText ts).calls, r.extensions.call? c.mode c.token = some c) ∧
    (r.extensions.Defer → r.text = .nested → r.silent = false →
      ∀ top nodes, (r.renderTokens (.block top) ts).outcome = .ok nodes →
        ((r.renderTokens (.block top) ts).calls =
          (Token.spotsOf ts).filterMap fun s => r.extensions.call? (levelWithin (.block top) s.1).mode s.2) ∧
        (r.renderTokens (.block top) ts).calls.map Call.token =
          (Token.allOf ts).filter fun t => (r.extensions.rule? t.kind).isSome) := by
  have htokens := fun level => r.renderTokens_proceeds level ts
  have hplain := r.bareText_proceeds ts
  refine ⟨fun level => ⟨map_token_calls_sublist (htokens level), fun c => call?_of_mem_calls (htokens level)⟩,
    ⟨map_token_calls_sublist hplain, fun c => call?_of_mem_calls hplain⟩, ?all⟩
  case all =>
    intro hdefer htext hsilent top nodes hok
    have hvisits :=
      visitsOf_eq_spotsOf hdefer htext hsilent (Level.isPrimary_block top) (failuresOf_eq_nil_of_ok hok)
    have hcalls := calls_eq_of_ok hok
    rw [callsOf_eq, hvisits] at hcalls
    have hall : ((Token.spotsOf ts).map (atLevel (.block top))).map Prod.snd = Token.allOf ts := by
      rw [List.map_map]
      exact Token.map_snd_spotsOf ts
    refine ⟨?_, by rw [hcalls, map_token_calls, hall]⟩
    rw [hcalls, List.filterMap_map]
    rfl

/-- The renderer with a rule for one kind, which defers. -/
def deferring (kind : String) : Renderer := { extensions := { rules := [(kind, { action := .defer })] } }

theorem defer_deferring (kind : String) : (deferring kind).extensions.Defer := by
  intro name rule hrule mode _
  have hmem : (name, rule) ∈ (deferring kind).extensions.rules := Entries.mem_of_get? hrule
  obtain ⟨rfl, rfl⟩ := Prod.mk.inj (List.mem_singleton.mp hmem)
  rfl

/-- A list of one tight item. -/
def tightList (ts : List Token) : Token := .list "" false 1 false [{ tokens := ts }]

/-- A rule in a tight item, in a quote there, and after the list. -/
theorem offered_once_in_order_of_quote_in_item :
    ((deferring "hr").renderTokens (.block true)
        [tightList [.hr "a", .blockquote "" "" [.hr "b"]], .hr "c"]).calls =
      (Token.spotsOf [tightList [.hr "a", .blockquote "" "" [.hr "b"]], .hr "c"]).filterMap
        (fun s => (deferring "hr").extensions.call? (levelWithin (.block true) s.1).mode s.2) ∧
    ((deferring "hr").renderTokens (.block true)
        [tightList [.hr "a", .blockquote "" "" [.hr "b"]], .hr "c"]).calls =
      [⟨.hr "a", .block false, .defer⟩, ⟨.hr "b", .block true, .defer⟩, ⟨.hr "c", .block true, .defer⟩] :=
  ⟨((offered_once_in_order _ _).2.2 (defer_deferring "hr") rfl rfl true _ rfl).1, rfl⟩

/-- Where the rules defer, each token that is offered is met in the mode by the flag of the nearest item
around it, unless it stands directly in a quote, where it is met at the top level. -/
theorem offered_by_flag_of_item (r : Renderer) (hdefer : r.extensions.Defer) (htext : r.text = .nested)
    (ts : List Token) :
    (r.renderBlocks ts).calls.Sublist ((Token.spotsOf ts).filterMap fun s =>
      r.extensions.call? (if s.1.head? = some .blockquote then .block true else Holder.itemMode s.1) s.2) := by
  have hvisits := visitsOf_sublist_spotsOf hdefer htext (Level.isPrimary_block true) ts
  have hcalls := (r.renderTokens_proceeds (.block true) ts).prefix_calls.sublist
  rw [callsOf_eq] at hcalls
  have hspots := hcalls.trans (hvisits.filterMap _)
  simpa only [renderBlocks, List.filterMap_map, Function.comp_def, atLevel, mode_levelWithin] using hspots

theorem offered_by_flag_of_item_of_quote :
    (deferring "hr").extensions.Defer ∧ (deferring "hr").text = .nested ∧
      ((deferring "hr").renderBlocks [tightList [.hr "a", .blockquote "" "" [.hr "b"]]]).calls.Sublist
        ((Token.spotsOf [tightList [.hr "a", .blockquote "" "" [.hr "b"]]]).filterMap fun s =>
          (deferring "hr").extensions.call?
            (if s.1.head? = some .blockquote then .block true else Holder.itemMode s.1) s.2) ∧
      ((deferring "hr").renderBlocks [tightList [.hr "a", .blockquote "" "" [.hr "b"]]]).calls =
        [⟨.hr "a", .block false, .defer⟩, ⟨.hr "b", .block true, .defer⟩] :=
  ⟨defer_deferring "hr", rfl, offered_by_flag_of_item _ (defer_deferring "hr") rfl _, rfl⟩

/-- The flag of a tight item does not reach into a quote in it. -/
theorem flag_of_item_lost_in_quote :
    ¬ ∀ (r : Renderer) (ts : List Token), r.extensions.Defer → r.text = .nested →
      (r.renderBlocks ts).calls.Sublist
        ((Token.spotsOf ts).filterMap fun s => r.extensions.call? (Holder.itemMode s.1) s.2) := by
  intro h
  have hrule : ∀ holders, (Token.hr "---").spots holders = [(holders, .hr "---")] := fun holders => by
    rw [Token.spots_eq]
    rfl
  have hquote : ∀ holders, (Token.blockquote "" "" [.hr "---"]).spots holders =
      [(holders, .blockquote "" "" [.hr "---"]), (.blockquote :: holders, .hr "---")] := fun holders => by
    rw [Token.spots_eq]
    simp [Token.held, hrule]
  have hspots : (tightList [.blockquote "" "" [.hr "---"]]).spots [] =
      [([], tightList [.blockquote "" "" [.hr "---"]]), ([.item false], .blockquote "" "" [.hr "---"]),
        ([.blockquote, .item false], .hr "---")] := by
    rw [Token.spots_eq]
    simp [tightList, Token.held, hquote]
  have hcalls := h (deferring "hr") [tightList [.blockquote "" "" [.hr "---"]]] (defer_deferring "hr") rfl
  rw [Token.spotsOf, List.flatMap_singleton, hspots] at hcalls
  have hcall : [(⟨.hr "---", .block true, .defer⟩ : Call)].Sublist [⟨.hr "---", .block false, .defer⟩] := hcalls
  simpa using List.singleton_sublist.mp hcall

end Renderer
end MarkdownNodes
