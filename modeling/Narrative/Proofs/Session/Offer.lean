import Mathlib.Tactic.Common
import Narrative.Proofs.Entries
import Narrative.Proofs.Session.Turn

/-!
# Which actions are offered and which are played

An event offers those of its actions whose conditions hold.  An action is played by its name alone:
what no action of the event on screen is called is refused and changes nothing, but an action that
is held back by its condition is played like one that is offered.
-/

namespace Narrative.Session

/-! ### What is offered -/

/-- The condition of an action, if it has one, passes in the document. -/
def Offers (s : Session) (action : Action) : Prop :=
  ∀ c, action.condition = some c → c.holds s.state = .ok true

/-- The condition of an action does not pass in the document. -/
def HoldsBack (s : Session) (action : Action) : Prop :=
  ∃ c, action.condition = some c ∧ c.holds s.state = .ok false

/-- The names of the actions that are offered, when no condition fails to evaluate. -/
theorem of_offeredOf {s : Session} {actions : List (String × Action)} {names : List String}
    (h : s.offeredOf actions = .ok names) :
    (∀ name, name ∈ names ↔ ∃ action, (name, action) ∈ actions ∧ s.Offers action) ∧
      ∀ entry ∈ actions, s.Offers entry.2 ∨ s.HoldsBack entry.2 := by
  induction actions generalizing names with
  | nil =>
    obtain rfl := Except.ok.inj h
    simp
  | cons entry rest ih =>
    obtain ⟨first, action⟩ := entry
    -- whether the first action is offered decides alone how the names go on
    have hcase : (s.Offers action ∧ (s.offeredOf rest).map (first :: ·) = .ok names) ∨
        (s.HoldsBack action ∧ s.offeredOf rest = .ok names) := by
      rw [offeredOf] at h
      cases hcondition : action.condition with
      | none =>
        rw [hcondition] at h
        refine Or.inl ⟨fun c hc => ?_, h⟩
        rw [hcondition] at hc
        cases hc
      | some c =>
        rw [hcondition] at h
        dsimp only at h
        split at h
        · cases h
        · rename_i hholds
          refine Or.inl ⟨fun other hother => ?_, h⟩
          obtain rfl : c = other := Option.some.inj (hcondition.symm.trans hother)
          exact hholds
        · rename_i hholds
          exact Or.inr ⟨⟨c, hcondition, hholds⟩, h⟩
    rcases hcase with ⟨hoffers, hnames⟩ | ⟨hback, hnames⟩
    · obtain ⟨others, hothers, rfl⟩ := Except.exists_of_map hnames
      obtain ⟨hmem, heach⟩ := ih hothers
      refine ⟨fun name => ?_, List.forall_mem_cons.2 ⟨Or.inl hoffers, heach⟩⟩
      rw [List.mem_cons, hmem]
      constructor
      · rintro (rfl | ⟨other, hother, hpasses⟩)
        · exact ⟨action, List.mem_cons_self, hoffers⟩
        · exact ⟨other, List.mem_cons_of_mem _ hother, hpasses⟩
      · rintro ⟨other, hother, hpasses⟩
        rcases List.mem_cons.1 hother with heq | hother
        · exact Or.inl (Prod.mk.inj heq).1
        · exact Or.inr ⟨other, hother, hpasses⟩
    · obtain ⟨hmem, heach⟩ := ih hnames
      refine ⟨fun name => ?_, List.forall_mem_cons.2 ⟨Or.inr hback, heach⟩⟩
      rw [hmem]
      constructor
      · rintro ⟨other, hother, hpasses⟩
        exact ⟨other, List.mem_cons_of_mem _ hother, hpasses⟩
      · rintro ⟨other, hother, hpasses⟩
        rcases List.mem_cons.1 hother with heq | hother
        · obtain ⟨c, hc, hfails⟩ := hback
          obtain rfl : other = action := (Prod.mk.inj heq).2
          rw [hpasses c hc] at hfails
          exact absurd (Except.ok.inj hfails) (by decide)
        · exact ⟨other, hother, hpasses⟩

/-- An action of the event on screen whose name is not offered is held back by its condition. -/
theorem holdsBack_of_not_offered {s : Session} {names : List String} (h : s.offered = .ok names)
    {name : String} (hname : name ∉ names) {action : Action}
    (haction : s.action? name = some action) :
    s.HoldsBack action := by
  obtain ⟨e, he, hlookup⟩ := Option.bind_eq_some_iff.1 haction
  have hmem : (name, action) ∈ e.actions := Entries.mem_of_lookup hlookup
  rw [offered, he] at h
  obtain ⟨hnames, heach⟩ := of_offeredOf h
  rcases heach _ hmem with hoffers | hback
  · exact absurd ((hnames name).2 ⟨action, hmem, hoffers⟩) hname
  · exact hback

/-- What is offered are actions of the event on screen. -/
theorem exists_action_of_offered {s : Session} {names : List String} (h : s.offered = .ok names)
    {name : String} (hname : name ∈ names) : ∃ action, s.action? name = some action := by
  cases he : s.currentEvent? with
  | none =>
    rw [offered, he] at h
    obtain rfl := Except.ok.inj h
    exact absurd hname List.not_mem_nil
  | some e =>
    rw [offered, he] at h
    obtain ⟨action, hmem, -⟩ := ((of_offeredOf h).1 name).1 hname
    obtain ⟨found, hfound⟩ := Entries.exists_lookup (List.mem_map_of_mem hmem)
    exact ⟨found, by rw [action?, he]; exact hfound⟩

/-! ### What is played -/

/-- A name that is not offered is refused, and nothing changes, exactly when the event on screen has
no action of that name; otherwise the action is held back by its condition and is played all the
same. -/
theorem respond_of_not_offered {s : Session} {names : List String} (h : s.offered = .ok names)
    {name : String} (hname : name ∉ names) :
    (s.action? name = none → s.respond name = s.fail (.actionNotAvailable name) []) ∧
      (∀ action, s.action? name = some action →
        s.HoldsBack action ∧ s.respond name = s.play action) ∧
      ((s.respond name).result = .error (.actionNotAvailable name) ↔ s.action? name = none) := by
  have hrespond := respond_eq s name
  refine ⟨fun hnone => ?_, fun action haction => ⟨holdsBack_of_not_offered h hname haction, ?_⟩, ?_⟩
  · rw [hrespond, hnone]
  · rw [hrespond, haction]
  · constructor
    · intro hresult
      rw [hrespond] at hresult
      cases haction : s.action? name with
      | none => rfl
      | some action =>
        rw [haction] at hresult
        rcases result_play hresult with heq | ⟨cause, heq⟩ <;> exact absurd heq nofun
    · intro hnone
      rw [hrespond, hnone]
      rfl

/-- A market with the actions `Buy`, for those who have fifteen coins, and `Leave`. -/
def market : Event :=
  { event := "market", storyline := "a", description := "Market", repeatable := true
    onDisplay := []
    triggers := Triggers.none.set ⟨.atom .null .equal .null, 1.0⟩ .hard
    actions := [
      ("Buy", ⟨[⟨⟨["resources", "coins"]⟩, .subtract, .number 15.0⟩],
        some (.atom (.access ⟨["resources", "coins"]⟩) .greaterEqual (.number 15.0))⟩),
      ("Leave", ⟨[], none⟩)] }

/-- A story in which the player has five coins at the market. -/
def poorBuyer : Story :=
  ⟨1, "", "", [], [market],
    [("global", .obj [("current_turn", .nat 0)]), ("resources", .obj [("coins", .nat 5)])]⟩

/-- At the market of `poorBuyer`. -/
def atMarket : Session :=
  (build poorBuyer (.ofList [])).session.run [.start]

/-- A name that no action of the market has is refused there. -/
theorem respond_atMarket :
    atMarket.offered = .ok ["Leave"] ∧ "Swim" ∉ ["Leave"] ∧ atMarket.action? "Swim" = none ∧
      atMarket.respond "Swim" = atMarket.fail (.actionNotAvailable "Swim") [] := by
  have hoffered : atMarket.offered = .ok ["Leave"] := by decide +kernel
  have hname : "Swim" ∉ ["Leave"] := by decide
  have hnone : atMarket.action? "Swim" = none := by decide +kernel
  exact ⟨hoffered, hname, hnone, (respond_of_not_offered hoffered hname).1 hnone⟩

/-- Five coins are not enough for `Buy` to be offered, but it is played by its name, and ten coins
are owed. -/
theorem respond_atMarket_heldBack :
    atMarket.offered = .ok ["Leave"] ∧ "Buy" ∉ ["Leave"] ∧
      (atMarket.respond "Buy").result = .ok () ∧
      (atMarket.respond "Buy").shown ≠ [] ∧
      (atMarket.respond "Buy").session.state.get? ["resources", "coins"] =
        some (.num (.int (-10))) ∧
      (atMarket.respond "Buy").session.turn ≠ atMarket.turn ∧
      atMarket.respond "Buy" ≠ atMarket.fail (.actionNotAvailable "Buy") [] := by
  have hresult : (atMarket.respond "Buy").result = .ok () := by decide +kernel
  refine ⟨by decide +kernel, by decide, hresult, by decide +kernel, by decide +kernel,
    by decide +kernel, fun h => ?_⟩
  rw [h] at hresult
  exact absurd hresult nofun

end Narrative.Session
