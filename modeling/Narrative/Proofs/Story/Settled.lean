import Narrative.Session.Snapshot
import Narrative.Proofs.Operand.Settled
import Narrative.Proofs.Story.Rereading

/-!
# Records that are decoded

Every record that is decoded is settled, from conditions up to stories and snapshots.  Parts that
are left out are written as empty containers, which is all that can make the document deeper.
-/

namespace Narrative

open Json

/-! ### Conditions -/

namespace Condition

/-- A condition whose document is neat and which is read again as it is. -/
structure Plain (limit : Nat) (c : Condition) : Prop where
  neat : c.toJson.Neat limit
  reread : c.reread = c

/-- The atom in a record, from its three fields. -/
theorem plain_of_atomOf? {depth : Nat} {body : Json} {c : Condition} (hfits : body.Fits depth)
    (h : atomOf? body = some c) : c.Plain depth := by
  obtain ⟨fields, hfields, h⟩ := Option.bind_eq_some_iff.1 h
  obtain ⟨inner, rfl, heach⟩ := hfits.fields hfields
  split at h
  · rename_i left operator right
    obtain ⟨l, hl, h⟩ := Option.bind_eq_some_iff.1 h
    obtain ⟨word, -, h⟩ := Option.bind_eq_some_iff.1 h
    obtain ⟨o, -, h⟩ := Option.bind_eq_some_iff.1 h
    obtain ⟨r, hr, h⟩ := Option.bind_eq_some_iff.1 h
    obtain rfl := Option.some.inj h
    have hleft := Operand.settles (heach left (by simp)) hl
    have hright := Operand.settles (heach right (by simp)) hr
    rw [Nat.max_eq_left (Nat.zero_le inner)] at hleft hright
    refine ⟨?_, by rw [reread, hleft.eq_of_decode l.ofJson?_toJson,
      hright.eq_of_decode r.ofJson?_toJson]⟩
    rw [toJson]
    refine .obj (by simp [Entries.names]) ?_
    simp only [List.forall_mem_cons, List.not_mem_nil, false_imp_iff, implies_true, and_true]
    exact ⟨.str _, hleft.neat, .str _, hright.neat⟩
  · cases h

theorem plain_group {limit : Nat} {connective : Connective} {members : List Condition}
    (hneat : ∀ member ∈ members, member.toJson.Neat limit)
    (hreread : rereadMembers members = members) : (group connective members).Plain (limit + 2) := by
  refine ⟨?_, by rw [reread, hreread]⟩
  rw [toJson, membersToJson_eq_map]
  refine .obj (by simp [Entries.names]) ?_
  simp only [List.forall_mem_cons, List.not_mem_nil, false_imp_iff, implies_true, and_true]
  exact ⟨.str _, .str _, .arr (List.forall_mem_map.2 hneat)⟩

mutual

theorem plain_of_decode? : (document : Json) → ∀ {inside : Bool} {depth : Nat} {c : Condition},
    document.Fits depth → decode? inside document = some c → c.Plain depth
  | .obj entries, inside, _, c, hfits, h => by
    rw [decode?] at h
    split at h
    · exact plain_of_atomOf? hfits h
    · split at h
      · rename_i hmembers
        obtain rfl := Option.some.inj h
        obtain ⟨inner, rfl, heach⟩ := hfits.entries
        exact plain_of_membersIn? entries heach hmembers
      · cases h
    · cases h
  | .arr (kind :: rest), inside, _, c, hfits, h => by
    obtain ⟨inner, rfl, heach⟩ := hfits.items
    rw [decode?.eq_def] at h
    dsimp only at h
    split at h
    · exact plain_of_atomOf? (.arr fun item hitem => heach item (List.mem_cons_of_mem _ hitem)) h
    · match rest, h with
      | [connective, .arr items], h =>
        dsimp only at h
        split at h
        · rename_i hmembers
          obtain rfl := Option.some.inj h
          obtain ⟨deeper, rfl, hitems⟩ := (heach (.arr items) (by simp)).items
          obtain ⟨hneat, hreread⟩ := plain_of_members? items hitems hmembers
          exact plain_group hneat hreread
        · cases h
      | [], h | [_], h | [_, .null], h | [_, .bool _], h | [_, .num _], h | [_, .str _], h
      | [_, .obj _], h | _ :: _ :: _ :: _, h => exact absurd h (by simp)
    · cases h
  | .null, _, _, _, _, h | .bool _, _, _, _, _, h | .num _, _, _, _, _, h | .str _, _, _, _, _, h
  | .arr [], _, _, _, _, h => by
    simp [decode?] at h

theorem plain_of_membersIn? : (entries : List (String × Json)) → ∀ {depth : Nat}
    {connective : Connective} {members : List Condition},
    (∀ entry ∈ entries, entry.2.Fits depth) → membersIn? entries = some members →
    (group connective members).Plain (depth + 1)
  | [], _, _, _, _, h => by
    rw [membersIn?] at h
    cases h
  | (name, .arr items) :: rest, _, connective, _, hfits, h => by
    rw [membersIn?] at h
    split at h
    · obtain ⟨inner, rfl, hitems⟩ := (hfits (name, .arr items) List.mem_cons_self).items
      obtain ⟨hneat, hreread⟩ := plain_of_members? items hitems h
      exact plain_group hneat hreread
    · exact plain_of_membersIn? rest
        (fun other hother => hfits other (List.mem_cons_of_mem _ hother)) h
  | (name, .null) :: rest, _, _, _, hfits, h | (name, .bool _) :: rest, _, _, _, hfits, h
  | (name, .num _) :: rest, _, _, _, hfits, h | (name, .str _) :: rest, _, _, _, hfits, h
  | (name, .obj _) :: rest, _, _, _, hfits, h => by
    rw [membersIn?.eq_def] at h
    dsimp only at h
    split at h
    · cases h
    · exact plain_of_membersIn? rest
        (fun other hother => hfits other (List.mem_cons_of_mem _ hother)) h

theorem plain_of_members? : (items : List Json) → ∀ {depth : Nat} {members : List Condition},
    (∀ item ∈ items, item.Fits depth) → members? items = some members →
    (∀ member ∈ members, member.toJson.Neat depth) ∧ rereadMembers members = members
  | [], _, _, _, h => by
    rw [members?] at h
    obtain rfl := Option.some.inj h
    exact ⟨fun _ hmember => absurd hmember List.not_mem_nil, rfl⟩
  | item :: rest, _, _, hfits, h => by
    rw [members?] at h
    split at h
    · cases h
    rename_i member hmember
    obtain ⟨others, hothers, rfl⟩ := Option.map_eq_some_iff.1 h
    have hplain := plain_of_decode? item (hfits item List.mem_cons_self) hmember
    obtain ⟨hneat, hreread⟩ := plain_of_members? rest
      (fun other hother => hfits other (List.mem_cons_of_mem _ hother)) hothers
    refine ⟨List.forall_mem_cons.2 ⟨hplain.neat, hneat⟩, ?_⟩
    rw [rereadMembers, hplain.reread, hreread]

end

/-- A decoded condition is settled. -/
theorem settles : Settles toJson ofJson? 0 := by
  intro depth document c hfits h
  have hplain := plain_of_decode? document hfits h
  refine ⟨hplain.neat.mono (Nat.le_max_left _ _), ?_⟩
  rw [ofJson?_toJson, hplain.reread]

end Condition

/-! ### Operations -/

namespace Operation

theorem settles : Settles toJson ofJson? 0 := by
  intro depth document o hfits h
  obtain ⟨fields, hfields, h⟩ := Option.bind_eq_some_iff.1 h
  obtain ⟨inner, rfl, heach⟩ := hfits.fields hfields
  split at h
  · rename_i target operator operand
    obtain ⟨t, ht, h⟩ := Option.bind_eq_some_iff.1 h
    obtain ⟨word, -, h⟩ := Option.bind_eq_some_iff.1 h
    obtain ⟨a, -, h⟩ := Option.bind_eq_some_iff.1 h
    obtain ⟨r, hr, h⟩ := Option.bind_eq_some_iff.1 h
    obtain rfl := Option.some.inj h
    have htarget := Access.settles (heach target (by simp)) ht
    have hoperand := Operand.settles (heach operand (by simp)) hr
    refine ⟨?_, ?_⟩
    · refine (Neat.obj (by simp [Entries.names]) ?_ : Neat (max inner 0 + 1) _).mono (by omega)
      simp only [List.forall_mem_cons, List.not_mem_nil, false_imp_iff, implies_true, and_true]
      exact ⟨htarget.neat, .str _, hoperand.neat⟩
    · rw [ofJson?_toJson, reread, hoperand.eq_of_decode r.ofJson?_toJson]
  · cases h

end Operation

/-! ### Events -/

namespace Trigger

theorem settles : Settles toJson ofJson? 0 := by
  intro depth document t hfits h
  obtain ⟨fields, hfields, h⟩ := Option.bind_eq_some_iff.1 h
  obtain ⟨inner, rfl, heach⟩ := hfits.fields hfields
  split at h
  · rename_i condition weight
    obtain ⟨c, hc, h⟩ := Option.bind_eq_some_iff.1 h
    obtain ⟨w, hw, h⟩ := Option.bind_eq_some_iff.1 h
    obtain rfl := Option.some.inj h
    have hcondition := Condition.settles (heach condition (by simp)) hc
    have hfinite : w.isFinite = true := by
      cases weight with
      | none =>
        obtain rfl := Option.some.inj hw
        exact show (1.0 : Float).isFinite = true by decide +kernel
      | some part =>
        have hpart := heach part (by simp)
        cases hpart with
        | num sound => exact Option.some.inj hw ▸ Operand.sound_toFloat sound
        | _ => cases hw
    refine ⟨?_, ?_⟩
    · refine (Neat.obj (by simp [Entries.names]) ?_ : Neat (max inner 0 + 1) _).mono (by omega)
      simp only [List.forall_mem_cons, List.not_mem_nil, false_imp_iff, implies_true, and_true]
      exact ⟨hcondition.neat, .num hfinite⟩
    · rw [ofJson?_toJson, reread, hcondition.eq_of_decode c.ofJson?_toJson]
  · cases h

end Trigger

namespace Triggers

/-- Triggers each of which is settled. -/
theorem settled_of_get {limit : Nat} {t : Triggers}
    (h : ∀ gate trigger, t.get gate = some trigger →
      Settled Trigger.toJson Trigger.ofJson? limit trigger) :
    Settled toJson ofJson? (limit + 1) t := by
  obtain ⟨hard, soft⟩ := t
  have hhard : hard.map Trigger.reread = hard :=
    map_eq_self_of_settled Trigger.ofJson?_toJson (h .hard)
  have hsoft : soft.map Trigger.reread = soft :=
    map_eq_self_of_settled Trigger.ofJson?_toJson (h .soft)
  refine ⟨.obj ?_ fun entry hentry => ?_, ?_⟩
  · cases hard <;> cases soft <;> simp [Entries.names]
  · simp only [List.mem_append, List.mem_map, Option.mem_toList] at hentry
    rcases hentry with ⟨trigger, htrigger, rfl⟩ | ⟨trigger, htrigger, rfl⟩
    · exact (h .hard trigger htrigger).neat
    · exact (h .soft trigger htrigger).neat
  · rw [ofJson?_toJson, reread, hhard, hsoft]

theorem settles : Settles toJson ofJson? 0 := by
  intro depth document t hfits h
  obtain ⟨fields, hfields, h⟩ := Option.bind_eq_some_iff.1 h
  obtain ⟨inner, rfl, heach⟩ := hfits.fields hfields
  split at h
  · rename_i hard soft
    obtain ⟨hardMade, hhard, h⟩ := Option.bind_eq_some_iff.1 h
    obtain ⟨softMade, hsoft, h⟩ := Option.bind_eq_some_iff.1 h
    obtain rfl := Option.some.inj h
    have hhard := Trigger.settles.optionalField
      (fun part hpart => heach part (by simp [hpart])) hhard
    have hsoft := Trigger.settles.optionalField
      (fun part hpart => heach part (by simp [hpart])) hsoft
    refine (settled_of_get fun gate trigger hget => ?_).mono (by omega : max inner 0 + 1 ≤ _)
    cases gate with
    | hard => exact hhard trigger hget
    | soft => exact hsoft trigger hget
  · cases h

end Triggers

namespace Action

/-- An action without operations is written with an empty list of them. -/
theorem settles : Settles toJson ofJson? 2 := by
  intro depth document a hfits h
  obtain ⟨fields, hfields, h⟩ := Option.bind_eq_some_iff.1 h
  obtain ⟨inner, rfl, heach⟩ := hfits.fields hfields
  split at h
  · rename_i operations condition
    obtain ⟨os, hos, h⟩ := Option.bind_eq_some_iff.1 h
    obtain ⟨c, hc, h⟩ := Option.bind_eq_some_iff.1 h
    obtain rfl := Option.some.inj h
    have hoperations : Settled operationsToJson (list? Operation.ofJson?) (max inner 1) os :=
      Settles.fieldOr Operation.settles.list (settled_list fun _ ho => absurd ho List.not_mem_nil)
        (fun part hpart => heach part (by simp [hpart])) hos
    have hcondition := Condition.settles.optionalField
      (fun part hpart => heach part (by simp [hpart])) hc
    have hreread := map_eq_self_of_settled Condition.ofJson?_toJson hcondition
    refine ⟨(Neat.obj ?_ fun entry hentry => ?_ : Neat (max inner 1 + 1) _).mono (by omega), ?_⟩
    · cases c <;> simp [Entries.names]
    · simp only [List.mem_cons, List.mem_map, Option.mem_toList] at hentry
      rcases hentry with rfl | ⟨made, hmade, rfl⟩
      · exact hoperations.neat
      · exact (hcondition made hmade).neat.mono (by omega)
    · rw [ofJson?_toJson, reread, hreread,
        hoperations.eq_of_decode (Operation.list?_operationsToJson os)]
  · cases h

end Action

namespace Event

/-- A mapping of actions is read again as it is. -/
theorem mapValues_reread_of_settled {limit : Nat} {actions : List (String × Action)}
    (h : Settled (encodeEntries Action.toJson) (entriesOf? Action.ofJson?) limit actions) :
    (Entries.names actions).Nodup ∧ Entries.mapValues Action.reread actions = actions := by
  have honce : (Entries.names actions).Nodup := by
    have hnames := h.neat.proper.names
    rwa [Entries.names_mapValues] at hnames
  have hactions := entriesOf?_mapValues honce fun entry _ => Action.ofJson?_toJson entry.2
  exact ⟨honce, h.eq_of_decode hactions⟩

/-- Of the parts that may be left out, the actions are written deepest. -/
theorem settles : Settles toJson ofJson? 4 := by
  intro depth document e hfits h
  obtain ⟨fields, hfields, h⟩ := Option.bind_eq_some_iff.1 h
  obtain ⟨inner, rfl, heach⟩ := hfits.fields hfields
  split at h
  · rename_i event storyline description repeatable onDisplay triggers actions
    obtain ⟨name, -, h⟩ := Option.bind_eq_some_iff.1 h
    obtain ⟨line, -, h⟩ := Option.bind_eq_some_iff.1 h
    obtain ⟨text, -, h⟩ := Option.bind_eq_some_iff.1 h
    obtain ⟨again, -, h⟩ := Option.bind_eq_some_iff.1 h
    obtain ⟨os, hos, h⟩ := Option.bind_eq_some_iff.1 h
    obtain ⟨ts, hts, h⟩ := Option.bind_eq_some_iff.1 h
    obtain ⟨as, has, h⟩ := Option.bind_eq_some_iff.1 h
    obtain rfl := Option.some.inj h
    have hdisplay : Settled operationsToJson (list? Operation.ofJson?) (max inner 1) os :=
      Settles.fieldOr Operation.settles.list
        (settled_list fun _ ho => absurd ho List.not_mem_nil)
        (fun part hpart => heach part (by simp [hpart])) hos
    have htriggers : Settled Triggers.toJson Triggers.ofJson? (max inner 1) ts :=
      Settles.fieldOr (Triggers.settles.mono (Nat.zero_le 1))
        (Triggers.settled_of_get fun gate _ hget => by cases gate <;> exact absurd hget nofun)
        (fun part hpart => heach part (by simp [hpart])) hts
    have hactions : Settled (encodeEntries Action.toJson) (entriesOf? Action.ofJson?)
        (max inner 3) as :=
      Settles.fieldOr Action.settles.mapping
        ((settled_entries List.nodup_nil fun _ ha => absurd ha List.not_mem_nil :
          Settled _ _ (0 + 1) []).mono (by decide))
        (fun part hpart => heach part (by simp [hpart])) has
    obtain ⟨honce, hreread⟩ := mapValues_reread_of_settled hactions
    refine ⟨(Neat.obj (by simp [Entries.names]) ?_ : Neat (max inner 3 + 1) _).mono (by omega), ?_⟩
    · simp only [List.forall_mem_cons, List.not_mem_nil, false_imp_iff, implies_true, and_true]
      exact ⟨.str _, .str _, .str _, .bool _, hdisplay.neat.mono (by omega),
        htriggers.neat.mono (by omega), hactions.neat⟩
    · rw [ofJson?_toJson honce, reread, hreread,
        hdisplay.eq_of_decode (Operation.list?_operationsToJson os),
        htriggers.eq_of_decode ts.ofJson?_toJson]
  · cases h

theorem map_reread_of_settled {limit : Nat} {events : List Event}
    (h : Settled (encodeList toJson) (list? ofJson?) limit events) :
    events.map reread = events := by
  have hevents : list? ofJson? (encodeList toJson events) = some (events.map reread) := by
    refine list?_arr_map fun e he => ofJson?_toJson ?_
    have hrecord := h.neat.proper.items e.toJson (List.mem_map.2 ⟨e, he, rfl⟩)
    have hactions := hrecord.values ("actions", .obj (Entries.mapValues Action.toJson e.actions))
      (by simp)
    exact Entries.names_mapValues _ _ ▸ hactions.names
  exact h.eq_of_decode hevents

end Event

/-! ### Stories -/

namespace Resource

theorem settles : Settles toJson ofJson? 0 := by
  intro depth document r hfits h
  obtain ⟨fields, hfields, h⟩ := Option.bind_eq_some_iff.1 h
  obtain ⟨inner, rfl, heach⟩ := hfits.fields hfields
  split at h
  · rename_i description format displayName default
    obtain ⟨d, -, h⟩ := Option.bind_eq_some_iff.1 h
    obtain ⟨f, -, h⟩ := Option.bind_eq_some_iff.1 h
    obtain ⟨n, -, h⟩ := Option.bind_eq_some_iff.1 h
    obtain rfl := Option.some.inj h
    have hdefault : default.normal.Neat inner := (heach default (by simp)).neat_normal
    refine ⟨(Neat.obj (by simp [Entries.names]) ?_ : Neat (inner + 1) _).mono (by omega), ?_⟩
    · simp only [List.forall_mem_cons, List.not_mem_nil, false_imp_iff, implies_true, and_true]
      exact ⟨.str _, .str _, .str _, hdefault⟩
    · exact ofJson?_toJson hdefault.proper
  · cases h

end Resource

theorem version_of_version? {document : Json} {n : Nat} (h : version? document = some n) :
    n < 2 ^ 32 := by
  unfold version? at h
  split at h
  · split at h
    · rename_i hrange
      obtain rfl := Option.some.inj h
      have hlt := hrange.2
      simp only [Nat.pow_eq] at hlt
      omega
    · cases h
  · cases h

/-- A state is the mapping that its document is made normal to. -/
theorem neat_of_normal {depth : Nat} {document : Json} {entries : List (String × Json)}
    (hfits : document.Fits depth) (h : document.normal.entries? = some entries) :
    (Json.obj entries).Neat depth := by
  have hneat := hfits.neat_normal
  cases hnormal : document.normal with
  | obj found =>
    rw [hnormal] at h hneat
    exact Option.some.inj h ▸ hneat
  | _ =>
    rw [hnormal] at h
    cases h

namespace Story

/-- Of the parts that may be left out, the operations of an action are written deepest. -/
theorem settles : Settles toJson ofJson? 6 := by
  intro depth document s hfits h
  obtain ⟨fields, hfields, h⟩ := Option.bind_eq_some_iff.1 h
  obtain ⟨inner, rfl, heach⟩ := hfits.fields hfields
  split at h
  · rename_i version title description resources events state
    obtain ⟨v, hv, h⟩ := Option.bind_eq_some_iff.1 h
    obtain ⟨t, -, h⟩ := Option.bind_eq_some_iff.1 h
    obtain ⟨d, -, h⟩ := Option.bind_eq_some_iff.1 h
    obtain ⟨rs, hrs, h⟩ := Option.bind_eq_some_iff.1 h
    obtain ⟨es, hes, h⟩ := Option.bind_eq_some_iff.1 h
    obtain ⟨entries, hentries, h⟩ := Option.bind_eq_some_iff.1 h
    have heq := Option.some.inj h
    have hversion : v < 2 ^ 32 := version_of_version? hv
    have hrange : Number.Sound (.int v) := ⟨by omega, by omega⟩
    have hresources := Resource.settles.mapping (heach resources (by simp)) hrs
    have hevents := Event.settles.list (heach events (by simp)) hes
    have hstate := neat_of_normal (heach state (by simp)) hentries
    have hneat : s.toJson.Neat (max inner 5 + 1) := by
      rw [← heq]
      refine .obj (by simp [Entries.names]) ?_
      simp only [List.forall_mem_cons, List.not_mem_nil, false_imp_iff, implies_true, and_true]
      exact ⟨.num hrange, .str _, .str _, hresources.neat.mono (by omega), hevents.neat,
        hstate.mono (by omega)⟩
    have hreread : s.reread = s := by
      rw [← heq, reread, Event.map_reread_of_settled hevents]
    refine ⟨hneat.mono (by omega), ?_⟩
    rw [ofJson?_toJson hneat.proper (by rw [← heq]; exact hversion), hreread]
  · cases h

end Story

/-! ### States and snapshots -/

namespace State

/-- The state that a document writes. -/
def ofJson? (document : Json) : Option State :=
  document.normal.entries?.map State.mk

theorem settles : Settles root ofJson? 0 := by
  intro depth document s hfits h
  obtain ⟨entries, hentries, rfl⟩ := Option.map_eq_some_iff.1 h
  have hneat := neat_of_normal hfits hentries
  refine ⟨hneat.mono (Nat.le_max_left _ _), ?_⟩
  rw [ofJson?, root, normal_eq_self _ hneat.proper]
  rfl

end State

namespace Snapshot

/-- A snapshot is decoded field by field. -/
theorem ofJson?_toJson {s : Snapshot} (h : s.state.root.Proper) : ofJson? s.toJson = some s := by
  obtain ⟨⟨entries⟩, viewed, current⟩ := s
  have hstate : (Json.obj entries).normal = .obj entries := normal_eq_self _ h
  have hviewed : list? text? (.arr (viewed.map .str)) = some (viewed.map id) :=
    list?_arr_map fun _ _ => rfl
  rw [List.map_id] at hviewed
  cases current <;>
    simp [ofJson?, toJson, State.root, shape, fields?, fieldsNamed?, Shape.ofNames, Shape.names,
      single?, hstate, hviewed, entries?, kind, optionalField, text?]

theorem settles : Settles toJson ofJson? 0 := by
  intro depth document saved hfits h
  obtain ⟨fields, hfields, h⟩ := Option.bind_eq_some_iff.1 h
  obtain ⟨inner, rfl, heach⟩ := hfits.fields hfields
  split at h
  · rename_i state viewed current
    split at h
    · cases h
    obtain ⟨entries, hentries, h⟩ := Option.bind_eq_some_iff.1 h
    obtain ⟨slugs, hslugs, h⟩ := Option.bind_eq_some_iff.1 h
    obtain ⟨slug, -, h⟩ := Option.bind_eq_some_iff.1 h
    obtain rfl := Option.some.inj h
    have hstate := neat_of_normal (heach state (by simp)) hentries
    have hviewed := Settles.text.list (heach viewed (by simp)) hslugs
    obtain ⟨deeper, rfl⟩ : ∃ deeper, inner = deeper + 1 := by
      cases viewed with
      | arr items =>
        obtain ⟨deeper, hdeeper, -⟩ := (heach (.arr items) (by simp)).items
        exact ⟨deeper, hdeeper⟩
      | _ => cases hslugs
    refine ⟨(Neat.obj (by simp [Entries.names]) ?_ : Neat (deeper + 2) _).mono (by omega),
      ofJson?_toJson hstate.proper⟩
    simp only [List.forall_mem_cons, List.not_mem_nil, false_imp_iff, implies_true, and_true]
    refine ⟨hstate, hviewed.neat.mono (by omega), ?_⟩
    cases slug with
    | none => exact .null
    | some slug => exact .str slug
  · cases h

end Snapshot

end Narrative
