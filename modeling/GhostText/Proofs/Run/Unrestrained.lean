import GhostText.Proofs.Run.Runs

/-!
# Hosts without restraint

A host may be free to do everything. Then its scripts may hold any actions, at any depth, and every
list of actions is one it may take.
-/

namespace GhostText

/-! ## What is inside is smaller -/

section

variable {b : Action} {c : Callback Action}

theorem Callback.sizeOf_lt (h : b ∈ c.script) : sizeOf b < sizeOf c := by
  have hscript := List.sizeOf_lt_of_mem h
  cases c
  simp only [Callback.mk.sizeOf_spec] at hscript ⊢
  omega

theorem Callback.sizeOf_lt_option {o : Option (Callback Action)} (hc : c ∈ o.toList)
    (h : b ∈ c.script) : sizeOf b < sizeOf o := by
  obtain rfl := Option.mem_toList.1 hc
  have hcallback := sizeOf_lt h
  simp only [Option.some.sizeOf_spec]
  omega

theorem Reactions.sizeOf_lt {r : Reactions Action} (hc : c ∈ r.callbacks) (h : b ∈ c.script) :
    sizeOf b < sizeOf r := by
  obtain ⟨onResult, onError⟩ := r
  simp only [Reactions.mk.sizeOf_spec]
  rcases List.mem_append.1 hc with hc | hc <;>
    (have hcallback := Callback.sizeOf_lt_option hc h
     dsimp only at hcallback
     omega)

theorem HandlerSpec.sizeOf_lt {s : HandlerSpec Action} (h : b ∈ s.script) :
    sizeOf b < sizeOf s := by
  cases s with
  | absent => cases h
  | reserved => cases h
  | plain script =>
    have hscript : sizeOf b < sizeOf script := List.sizeOf_lt_of_mem h
    simp only [plain.sizeOf_spec]
    omega
  | declared kind script =>
    have hscript : sizeOf b < sizeOf script := List.sizeOf_lt_of_mem h
    simp only [declared.sizeOf_spec]
    omega

theorem ClientAction.sizeOf_lt_registered {a : ClientAction Action} (hc : c ∈ a.registered.2)
    (hb : b ∈ c.script) : sizeOf b < sizeOf a := by
  have hreactions : ∀ {r : Reactions Action}, c ∈ r.callbacks → sizeOf b < sizeOf r :=
    fun hc => Reactions.sizeOf_lt hc hb
  cases a with
  | request _ _ _ r _ | andThen _ r | startServer _ r | shutdown r =>
    have hr := hreactions (r := r) hc
    simp
    omega
  | _ => cases hc

theorem ClientAction.sizeOf_lt_script {a : ClientAction Action} {script : List Action}
    (hs : script ∈ a.scripts) (hb : b ∈ script) : sizeOf b < sizeOf a := by
  cases a with
  | handleRequests _ s | handleNotifications _ s =>
    obtain rfl := List.mem_singleton.1 hs
    have hspec := HandlerSpec.sizeOf_lt hb
    simp
    omega
  | _ => cases hs

theorem AssistantAction.sizeOf_lt_registered {a : AssistantAction Action}
    (hc : c ∈ a.registered.2) (hb : b ∈ c.script) : sizeOf b < sizeOf a := by
  have hreactions : ∀ {r : Reactions Action}, c ∈ r.callbacks → sizeOf b < sizeOf r :=
    fun hc => Reactions.sizeOf_lt hc hb
  cases a with
  | version r | checkStatus _ r | signIn r | confirmSignIn _ r | signOut r | editorInfo _ _ r
  | completions _ _ r =>
    have hr := hreactions (r := r) hc
    simp
    omega
  | handshake _ _ _ _ _ onReady onError =>
    rcases List.mem_append.1 hc with hc | hc <;>
      (have hcallback := Callback.sizeOf_lt_option hc hb
       simp
       omega)
  | _ => cases hc

theorem AssistantAction.sizeOf_lt_script {a : AssistantAction Action} {script : List Action}
    (hs : script ∈ a.scripts) (hb : b ∈ script) : sizeOf b < sizeOf a := by
  cases a with
  | subscribe _ _ script =>
    obtain rfl := List.mem_singleton.1 hs
    have hscript := List.sizeOf_lt_of_mem hb
    simp
    omega
  | _ => cases hs

theorem TaskAction.sizeOf_lt_registered {a : TaskAction Action} (hc : c ∈ a.registered.2)
    (hb : b ∈ c.script) : sizeOf b < sizeOf a := by
  cases a with
  | start _ onCompletion =>
    have hcallback := Callback.sizeOf_lt_option hc hb
    simp
    omega
  | _ => cases hc

/-- What is inside an action is smaller than it. -/
theorem Action.sizeOf_lt {a : Action} (h : b ∈ a.inner) : sizeOf b < sizeOf a := by
  simp only [inner, List.mem_append, List.mem_flatten, List.mem_map] at h
  rcases h with ⟨script, ⟨c, hc, rfl⟩, hb⟩ | h
  · cases a with
    | client a =>
      have hlt := ClientAction.sizeOf_lt_registered hc hb
      simp only [client.sizeOf_spec]
      omega
    | assistant a =>
      have hlt := AssistantAction.sizeOf_lt_registered hc hb
      simp only [assistant.sizeOf_spec]
      omega
    | task a =>
      have hlt := TaskAction.sizeOf_lt_registered hc hb
      simp only [task.sizeOf_spec]
      omega
    | _ => cases hc
  · cases a with
    | within n a =>
      obtain rfl := List.mem_singleton.1 h
      simp only [within.sizeOf_spec]
      omega
    | client a =>
      obtain ⟨script, hs, hb⟩ := List.mem_flatten.1 h
      have hlt := ClientAction.sizeOf_lt_script hs hb
      simp only [client.sizeOf_spec]
      omega
    | assistant a =>
      obtain ⟨script, hs, hb⟩ := List.mem_flatten.1 h
      have hlt := AssistantAction.sizeOf_lt_script hs hb
      simp only [assistant.sizeOf_spec]
      omega
    | _ => cases h

end

/-! ## Everything is allowed -/

namespace Conduct

/-- A host that may do everything. -/
def any : Conduct := ⟨fun _ => True, fun _ _ => True⟩

/-- A host without restraint may take every action, by induction over what is inside. -/
theorem any_allows (a : Action) : any.Allows a :=
  .intro trivial (fun _ _ _ _ _ => trivial) fun b _ => any_allows b
termination_by a
decreasing_by exact Action.sizeOf_lt ‹_›

theorem any_equips (setup : ClientSetup) : any.Equips setup := fun _ _ a _ => any_allows a

theorem any_takes (actions : List Action) (w : World) : any.Takes actions w := by
  induction actions generalizing w with
  | nil => trivial
  | cons a actions ih => exact ⟨(any_allows a).fits _, ih _⟩

end Conduct

namespace World

variable {t : Transport} {setup : ClientSetup} {w : World}

/-- Every run that begins as runs begin is sound. -/
theorem Begins.sound (h : w.Begins t setup) (actions : List Action) :
    Conduct.any.free.Sound (w.after actions) := by
  have hs := (h.fresh (Conduct.any_equips setup)).sound
  exact ((leads_after (k := Conduct.any.free) (Conduct.any_takes actions w)).steps hs).sound hs

/-- In every run the client goes a row of steps in what it keeps of its peer. -/
theorem peerSteps_after (hs : Conduct.any.free.Sound w) (actions : List Action) :
    w.client.PeerSteps (w.after actions).client :=
  (leads_after (k := Conduct.any.free) (Conduct.any_takes actions w)).peer hs

end World

end GhostText
