import Mathlib.Data.List.Basic
import ReconcileTrigger.Json.Reader
import ReconcileTrigger.Proofs.Json.Parts

/-!
Every document that is read is well-formed, so what is shown of well-formed documents holds for all
that come from a text. The machine keeps its finished values well-formed from token to token, and
sorts the members of an object when it closes it.
-/

namespace ReconcileTrigger.Json

open Value (WellFormed)

theorem Value.wellFormed_ofMembers {members : List (String × Value)}
    (h : ∀ e ∈ members, e.2.WellFormed) : WellFormed (ofMembers members) :=
  Value.wellFormed_object_iff.2
    ⟨sortedKeys_sortEntries members, fun e he => h e (mem_of_mem_sortEntries he)⟩

def Token.WellFormed : Token → Prop
  | .scalar v => v.WellFormed
  | _ => True

def Frame.WellFormed : Frame → Prop
  | .array elements => ∀ v ∈ elements, v.WellFormed
  | .object members _ => ∀ e ∈ members, e.2.WellFormed

theorem Frame.wellFormed_array_nil : Frame.WellFormed (.array []) := by
  intro v hv
  exact absurd hv List.not_mem_nil

theorem Frame.wellFormed_object_nil (key : String) : Frame.WellFormed (.object [] key) := by
  intro e he
  exact absurd he List.not_mem_nil

theorem Frame.wellFormed_array_cons {v : Value} {done : List Value} (hv : v.WellFormed)
    (hdone : Frame.WellFormed (.array done)) : Frame.WellFormed (.array (v :: done)) :=
  List.forall_mem_cons.2 ⟨hv, hdone⟩

theorem Frame.wellFormed_object_cons {v : Value} {done : List (String × Value)} {key : String}
    (hv : v.WellFormed) (hdone : Frame.WellFormed (.object done key)) (next : String) :
    Frame.WellFormed (.object ((key, v) :: done) next) :=
  List.forall_mem_cons.2 ⟨hv, hdone⟩

def Stage.WellFormed : Stage → Prop
  | .after v => v.WellFormed
  | _ => True

structure Machine.WellFormed (m : Machine) : Prop where
  stack : ∀ frame ∈ m.stack, frame.WellFormed
  stage : m.stage.WellFormed

theorem wellFormed_of_punctuation? {c : Char} {token : Token} (h : punctuation? c = some token) :
    token.WellFormed := by
  cases token with
  | scalar v =>
    unfold punctuation? at h
    split at h <;> cases h
  | _ => trivial

theorem wellFormed_of_scanToken {cs rest : List Char} {token : Token}
    (h : scanToken cs = some (token, rest)) : token.WellFormed := by
  unfold scanToken at h
  split at h
  · obtain ⟨rfl, _⟩ := Prod.mk.inj (Option.some.inj h)
    trivial
  · obtain ⟨rfl, _⟩ := Prod.mk.inj (Option.some.inj h)
    trivial
  · obtain ⟨rfl, _⟩ := Prod.mk.inj (Option.some.inj h)
    trivial
  · obtain ⟨_, _, heq⟩ := Option.map_eq_some_iff.1 h
    obtain ⟨rfl, _⟩ := Prod.mk.inj heq
    trivial
  · split at h
    · rename_i hpunctuation
      obtain ⟨rfl, _⟩ := Prod.mk.inj (Option.some.inj h)
      exact wellFormed_of_punctuation? hpunctuation
    · obtain ⟨_, _, h⟩ := Option.bind_eq_some_iff.1 h
      obtain ⟨_, _, h⟩ := Option.bind_eq_some_iff.1 h
      obtain ⟨rfl, _⟩ := Prod.mk.inj (Option.some.inj h)
      trivial
  · contradiction

theorem wellFormed_of_tokens? {cs : List Char} {tokens : List Token}
    (h : tokens? cs = some tokens) : ∀ token ∈ tokens, token.WellFormed := by
  induction cs using tokens?.induct generalizing tokens with
  | case1 =>
    rw [tokens?] at h
    obtain rfl := Option.some.inj h
    exact fun _ hmem => absurd hmem List.not_mem_nil
  | case2 c rest hspace ih =>
    rw [tokens?, if_pos hspace] at h
    exact ih h
  | case3 c rest hspace hscan =>
    rw [tokens?, if_neg hspace] at h
    split at h
    · contradiction
    · rename_i heq
      rw [hscan] at heq
      contradiction
  | case4 c rest hspace token rest' hscan ih =>
    rw [tokens?, if_neg hspace] at h
    split at h
    · contradiction
    · rename_i heq
      rw [hscan] at heq
      obtain ⟨rfl, rfl⟩ := Prod.mk.inj (Option.some.inj heq)
      obtain ⟨later, hlater, rfl⟩ := Option.map_eq_some_iff.1 h
      intro t ht
      rcases List.mem_cons.1 ht with rfl | ht
      · exact wellFormed_of_scanToken hscan
      · exact ih hlater t ht

namespace Machine

theorem wellFormed_cons {frame : Frame} {stack : List Frame} {stage : Stage}
    (hframe : frame.WellFormed) (hstack : ∀ f ∈ stack, f.WellFormed) (hstage : stage.WellFormed) :
    WellFormed ⟨frame :: stack, stage⟩ :=
  ⟨List.forall_mem_cons.2 ⟨hframe, hstack⟩, hstage⟩

theorem wellFormed_push? {m next : Machine} {frame : Frame} {stage : Stage} (hm : m.WellFormed)
    (hframe : frame.WellFormed) (hstage : stage.WellFormed)
    (h : m.push? frame stage = some next) : next.WellFormed := by
  unfold push? at h
  split at h
  · obtain rfl := Option.some.inj h
    exact wellFormed_cons hframe hm.stack hstage
  · contradiction

theorem wellFormed_begin? {m next : Machine} {token : Token} (hm : m.WellFormed)
    (htoken : token.WellFormed) (h : m.begin? token = some next) : next.WellFormed := by
  unfold begin? at h
  split at h
  · obtain rfl := Option.some.inj h
    exact ⟨hm.stack, htoken⟩
  · have hstage : Stage.firstElement.WellFormed := trivial
    exact wellFormed_push? hm Frame.wellFormed_array_nil hstage h
  · have hstage : Stage.firstKey.WellFormed := trivial
    exact wellFormed_push? hm (Frame.wellFormed_object_nil "") hstage h
  · contradiction

theorem wellFormed_resume? {v : Value} {stack : List Frame} {token : Token} {next : Machine}
    (hv : v.WellFormed) (hstack : ∀ f ∈ stack, f.WellFormed)
    (h : resume? v stack token = some next) : next.WellFormed := by
  unfold resume? at h
  split at h
  · obtain ⟨hframe, hrest⟩ := List.forall_mem_cons.1 hstack
    obtain rfl := Option.some.inj h
    exact wellFormed_cons (Frame.wellFormed_array_cons hv hframe) hrest trivial
  · obtain ⟨hframe, hrest⟩ := List.forall_mem_cons.1 hstack
    obtain rfl := Option.some.inj h
    refine ⟨hrest, Value.wellFormed_array_iff.2 ?_⟩
    intro u hu
    exact Frame.wellFormed_array_cons hv hframe u (List.mem_reverse.1 hu)
  · obtain ⟨hframe, hrest⟩ := List.forall_mem_cons.1 hstack
    obtain rfl := Option.some.inj h
    exact wellFormed_cons (Frame.wellFormed_object_cons hv hframe "") hrest trivial
  · obtain ⟨hframe, hrest⟩ := List.forall_mem_cons.1 hstack
    obtain rfl := Option.some.inj h
    refine ⟨hrest, Value.wellFormed_ofMembers ?_⟩
    intro e he
    exact Frame.wellFormed_object_cons hv hframe "" e (List.mem_reverse.1 he)
  · contradiction

/-- One token keeps everything that is finished well-formed. -/
theorem wellFormed_step? {m next : Machine} {token : Token} (hm : m.WellFormed)
    (htoken : token.WellFormed) (h : m.step? token = some next) : next.WellFormed := by
  obtain ⟨stack, stage⟩ := m
  have hrest : ∀ frame rest, stack = frame :: rest → ∀ f ∈ rest, f.WellFormed := by
    rintro frame rest rfl f hf
    exact hm.stack f (List.mem_cons_of_mem _ hf)
  unfold step? at h
  split at h
  · exact wellFormed_begin? hm htoken h
  · rename_i hstack
    obtain rfl := Option.some.inj h
    exact ⟨hrest _ _ hstack, Value.wellFormed_array_iff.2 Frame.wellFormed_array_nil⟩
  · exact wellFormed_begin? hm htoken h
  · obtain rfl := Option.some.inj h
    exact ⟨hm.stack, trivial⟩
  · obtain rfl := Option.some.inj h
    exact ⟨hm.stack, trivial⟩
  · rename_i hstack
    obtain rfl := Option.some.inj h
    refine ⟨hrest _ _ hstack, Value.wellFormed_object_iff.2 ⟨sortedKeys_nil, ?_⟩⟩
    exact Frame.wellFormed_object_nil ""
  · rename_i hstack
    obtain rfl := Option.some.inj h
    have hframe := hm.stack _ (hstack ▸ List.mem_cons_self ..)
    exact wellFormed_cons hframe (hrest _ _ hstack) trivial
  · rename_i hstage
    obtain rfl := hstage
    exact wellFormed_resume? hm.stage hm.stack h
  · contradiction

theorem wellFormed_run {m next : Machine} {tokens : List Token} (hm : m.WellFormed)
    (htokens : ∀ token ∈ tokens, token.WellFormed) (h : tokens.foldlM step? m = some next) :
    next.WellFormed := by
  induction tokens generalizing m with
  | nil =>
    obtain rfl := Option.some.inj h
    exact hm
  | cons token rest ih =>
    rw [List.foldlM_cons] at h
    obtain ⟨middle, hstep, hrun⟩ := Option.bind_eq_some_iff.1 h
    have hmiddle := wellFormed_step? hm (htokens token (List.mem_cons_self ..)) hstep
    exact ih hmiddle (fun t ht => htokens t (List.mem_cons_of_mem _ ht)) hrun

end Machine

/-- A document that is read is well-formed. -/
theorem Value.wellFormed_of_parse? {s : String} {v : Value} (h : Value.parse? s = some v) :
    v.WellFormed := by
  obtain ⟨tokens, htokens, h⟩ := Option.bind_eq_some_iff.1 h
  obtain ⟨machine, hrun, hresult⟩ := Option.bind_eq_some_iff.1 h
  have hstart : Machine.WellFormed ⟨[], .value⟩ :=
    ⟨fun _ hf => absurd hf List.not_mem_nil, trivial⟩
  have hmachine := Machine.wellFormed_run hstart (wellFormed_of_tokens? htokens) hrun
  unfold Machine.result? at hresult
  split at hresult
  · rename_i hstage _
    obtain rfl := Option.some.inj hresult
    have hlast := hmachine.stage
    rw [hstage] at hlast
    exact hlast
  · contradiction

end ReconcileTrigger.Json
