import GhostText.Proofs.Client.Serving
import GhostText.Proofs.Json.Members
import GhostText.Proofs.Text.Blanks

/-!
# What the server has registered

Whatever items the server sends, every one that is kept stands under its own identifier without the
blanks around it. To unregister takes the identifier as it comes, so it undoes a registration whose
identifier has no blanks around it, and leaves any other one where it is.
-/

namespace GhostText

namespace Fields

variable {fs : Fields} {key : String}

theorem keys_remove (key : String) (fs : Fields) :
    (remove key fs).keys = fs.keys.filter (· != key) := by
  rw [keys, remove, keys, List.filter_map]
  rfl

theorem lookup_remove (other : String) (fs : Fields) :
    (remove key fs).lookup other = if other = key then none else fs.lookup other := by
  induction fs with
  | nil => simp [remove]
  | cons f fs ih =>
    have hf : remove key (f :: fs) =
        if f.1 = key then remove key fs else f :: remove key fs := by
      by_cases hk : f.1 = key <;> simp [remove, hk]
    rw [hf, List.lookup_cons]
    by_cases hk : f.1 = key
    · rw [if_pos hk, ih]
      by_cases ho : other = key
      · rw [if_pos ho, if_pos ho]
      · have hne : (other == f.1) = false := beq_eq_false_iff_ne.2 (hk ▸ ho)
        rw [if_neg ho, if_neg ho, hne]
    · rw [if_neg hk, List.lookup_cons, ih]
      cases he : other == f.1 with
      | true =>
        have ho : other ≠ key := (beq_iff_eq.1 he) ▸ hk
        simp [ho]
      | false => rfl

theorem mem_put {f : String × Json} {v : Json} (h : f ∈ put key v fs) : f = (key, v) ∨ f ∈ fs := by
  induction fs with
  | nil => exact .inl (List.mem_singleton.1 h)
  | cons g fs ih =>
    obtain ⟨k, u⟩ := g
    rw [put] at h
    split at h
    · exact (List.mem_cons.1 h).imp_right (List.mem_cons_of_mem _)
    · exact (List.mem_cons.1 h).elim (fun e => .inr (e ▸ List.mem_cons_self))
        fun h => (ih h).imp_right (List.mem_cons_of_mem _)

end Fields

namespace Registrations

open Text

variable {rs : Registrations} {item : Json} {items : List Json} {key x : String}

/-- The key an item is registered under; an identifier of blanks only is none. -/
def keyOf? (item : Json) : Option String :=
  if item.isObject ∧ HasInk (idOf item) then some (trim (idOf item)) else none

def takes? (item : Json) : Option String := if item.isObject then some (idOf item) else none

/-- An item is kept under its identifier without the blanks around it, if it has one of which
anything is left. -/
theorem keyOf?_eq_some_iff : keyOf? item = some key ↔
    item.isObject ∧ HasInk (idOf item) ∧ trim (idOf item) = key := by
  rw [keyOf?]
  split
  · next h => simp [h.1, h.2]
  · next h => simp only [reduceCtorEq, false_iff]; exact fun h' => h ⟨h'.1, h'.2.1⟩

/-- Keys have no blanks around them. -/
theorem isTrimmed_of_keyOf? (h : keyOf? item = some key) : IsTrimmed key :=
  (keyOf?_eq_some_iff.1 h).2.2 ▸ isTrimmed_trim _

theorem addItem_eq (rs : Registrations) (item : Json) : addItem rs item =
    match keyOf? item with
    | some key => Fields.put key item rs
    | none => rs := by
  have hink := isEmpty_trim_eq_false_iff (idOf item)
  unfold addItem keyOf?
  dsimp only
  cases ho : item.isObject with
  | false => simp
  | true =>
    cases he : (trim (idOf item)).isEmpty with
    | true =>
      have hnone : ¬ HasInk (idOf item) := fun h => by simp [he] at hink; exact hink h
      simp [hnone]
    | false => simp [hink.1 he]

theorem removeItem_eq (rs : Registrations) (item : Json) : removeItem rs item =
    match takes? item with
    | some key => Fields.remove key rs
    | none => rs := by
  unfold removeItem takes?
  cases item.isObject <;> rfl

/-! ## What stands under a key -/

theorem lookup_addItem (rs : Registrations) (item : Json) (key : String) :
    (addItem rs item).lookup key = if keyOf? item = some key then some item else rs.lookup key := by
  rw [addItem_eq]
  cases hi : keyOf? item with
  | none => simp
  | some k =>
    by_cases hk : k = key
    · simp [hk]
    · simp [hk, Fields.lookup_put_other (Ne.symm hk)]

/-- The last of some items that is registered under a key. -/
def lastUnder? (key : String) (items : List Json) : Option Json :=
  items.reverse.find? (keyOf? · = some key)

/-- Of some items the last one under a key is kept. -/
theorem lookup_addItems (items : List Json) (rs : Registrations) (key : String) :
    (items.foldl addItem rs).lookup key = (lastUnder? key items).or (rs.lookup key) := by
  induction items generalizing rs with
  | nil => rfl
  | cons item items ih =>
    rw [List.foldl_cons, ih, lookup_addItem, lastUnder?, lastUnder?, List.reverse_cons,
      List.find?_append, Option.or_assoc]
    congr 1
    by_cases hk : keyOf? item = some key <;> simp [hk]

theorem lookup_removeItem (rs : Registrations) (item : Json) (key : String) :
    (removeItem rs item).lookup key =
      if takes? item = some key then none else rs.lookup key := by
  rw [removeItem_eq]
  cases hi : takes? item with
  | none => simp
  | some k => simp [Fields.lookup_remove, eq_comm]

/-- An item is taken off if any of some others names its key as it stands. -/
theorem lookup_removeItems (items : List Json) (rs : Registrations) (key : String) :
    (items.foldl removeItem rs).lookup key =
      if some key ∈ items.map takes? then none else rs.lookup key := by
  induction items generalizing rs with
  | nil => simp
  | cons item items ih =>
    rw [List.foldl_cons, ih, lookup_removeItem, List.map_cons]
    by_cases hm : some key ∈ items.map takes?
    · simp [hm]
    · simp [hm, eq_comm]

/-! ## Items under their own keys -/

/-- No key stands twice, and every item stands under its own. -/
structure Keyed (rs : Registrations) : Prop where
  nodup : rs.keys.Nodup
  own : ∀ r ∈ rs, keyOf? r.2 = some r.1

theorem Keyed.nil : Keyed [] := ⟨List.nodup_nil, fun _ h => absurd h List.not_mem_nil⟩

/-- An item that is kept stands under its own key. -/
theorem Keyed.addItem (h : Keyed rs) (item : Json) : Keyed (rs.addItem item) := by
  rw [addItem_eq]
  cases hi : keyOf? item with
  | none => exact h
  | some k =>
    refine ⟨Fields.nodup_keys_put h.nodup .., fun r hr => ?_⟩
    rcases Fields.mem_put hr with rfl | hr
    · exact hi
    · exact h.own r hr

theorem Keyed.removeItem (h : Keyed rs) (item : Json) : Keyed (rs.removeItem item) := by
  rw [removeItem_eq]
  cases takes? item with
  | none => exact h
  | some k =>
    refine ⟨?_, fun r hr => h.own r (List.mem_of_mem_filter hr)⟩
    exact Fields.keys_remove k rs ▸ h.nodup.filter _

theorem Keyed.foldl {f : Registrations → Json → Registrations}
    (hf : ∀ {rs}, Keyed rs → ∀ item, Keyed (f rs item)) (h : Keyed rs) (items : List Json) :
    Keyed (items.foldl f rs) :=
  List.foldlRecOn (motive := Keyed) items f h fun _ h item _ => hf h item

/-- A registered item is found under its own key. -/
theorem Keyed.lookup (h : Keyed rs) {r : String × Json} (hr : r ∈ rs) :
    rs.lookup (trim (idOf r.2)) = some r.2 ∧ HasInk (idOf r.2) := by
  obtain ⟨-, hink, hkey⟩ := keyOf?_eq_some_iff.1 (h.own r hr)
  exact ⟨hkey ▸ Fields.lookup_of_mem h.nodup hr, hink⟩

end Registrations

/-! ## Requests of the server -/

/-- What a request changes about the registrations. -/
def ReservedRequest.change (params : Json) : ReservedRequest → Registrations →
    Except Fault Registrations
  | .register => Registrations.register params
  | .unregister => Registrations.unregister params

/-- The registrations once a request was handled; one that cannot be read changes nothing. -/
def ReservedRequest.handle (rs : Registrations) (r : ReservedRequest × Json) : Registrations :=
  match r.1.change r.2 rs with
  | .ok rs' => rs'
  | .error _ => rs

namespace Registrations

variable {rs : Registrations} {item : Json} {items : List Json} {key x : String}

/-- A request of the server, whatever it holds, leaves every item under its own key. -/
theorem Keyed.handle (h : Keyed rs) (r : ReservedRequest × Json) :
    Keyed (ReservedRequest.handle rs r) := by
  obtain ⟨r, params⟩ := r
  unfold ReservedRequest.handle ReservedRequest.change
  cases r with
  | register =>
    dsimp only [register]
    cases (params.fieldD "registrations").itemsOrNone with
    | error f => exact h
    | ok items => exact h.foldl Keyed.addItem items
  | unregister =>
    dsimp only [unregister]
    cases ((params.fieldD "unregisterations").orElse (params.fieldD "unregistrations")).itemsOrNone
      with
    | error f => exact h
    | ok items => exact h.foldl Keyed.removeItem items

def after (requests : List (ReservedRequest × Json)) : Registrations :=
  requests.foldl ReservedRequest.handle []

/-- Whatever requests come, every item that is kept stands under its own key. -/
theorem keyed_after (requests : List (ReservedRequest × Json)) : Keyed (after requests) :=
  List.foldlRecOn requests ReservedRequest.handle Keyed.nil fun _ h r _ => h.handle r

theorem itemsOrNone_arr (items : List Json) : (Json.arr items).itemsOrNone = .ok items := by
  cases items <;> rfl

theorem handle_register {params : Json} (h : params.fieldD "registrations" = .arr items)
    (rs : Registrations) :
    ReservedRequest.handle rs (.register, params) = items.foldl addItem rs := by
  simp [ReservedRequest.handle, ReservedRequest.change, register, h, itemsOrNone_arr, bind,
    Except.bind, pure, Except.pure]

/-- The items to take off stand under either spelling of the member, the protocol's own first. -/
theorem handle_unregister {params : Json} (h : (params.fieldD "unregisterations").orElse
      (params.fieldD "unregistrations") = .arr items) (rs : Registrations) :
    ReservedRequest.handle rs (.unregister, params) = items.foldl removeItem rs := by
  simp [ReservedRequest.handle, ReservedRequest.change, unregister, h, itemsOrNone_arr, bind,
    Except.bind, pure, Except.pure]

/-- What was registered in a list with an item of an identifier, and then unregistered by it: the
item under the same key is left just where that identifier has blanks around it and the last item of
the list under the key has it too. -/
theorem remains_iff (h : Keyed rs) (hitem : item ∈ items) (hobject : item.isObject)
    {taken : List Json} (htaken : some (idOf item) ∈ taken.map takes?)
    (honly : ∀ i ∈ taken, ∀ id, takes? i = some id → id = idOf item) :
    (∃ r ∈ taken.foldl removeItem (items.foldl addItem rs), idOf r.2 = idOf item) ↔
      ¬ Text.IsTrimmed (idOf item) ∧
        (lastUnder? (Text.trim (idOf item)) items).map idOf = some (idOf item) := by
  obtain ⟨x, hx⟩ : ∃ x, idOf item = x := ⟨_, rfl⟩
  rw [hx] at htaken honly ⊢
  have hkept := h.foldl Keyed.addItem items
  have hleft := hkept.foldl Keyed.removeItem taken
  -- Only the identifier itself is unregistered.
  have hlookup : ∀ key, (taken.foldl removeItem (items.foldl addItem rs)).lookup key =
      if key = x then none else (lastUnder? key items).or (rs.lookup key) := by
    intro key
    have hkey : some key ∈ taken.map takes? ↔ key = x := by
      constructor
      · intro hk
        obtain ⟨i, hi, he⟩ := List.mem_map.1 hk
        exact honly i hi key he
      · exact fun he => he ▸ htaken
    rw [lookup_removeItems, lookup_addItems]
    simp only [hkey]
  constructor
  · rintro ⟨r, hr, rfl⟩
    obtain ⟨hfound, hink⟩ := hleft.lookup hr
    have hlast : (lastUnder? (Text.trim (idOf r.2)) items).isSome := by
      rw [lastUnder?, List.find?_isSome]
      exact ⟨item, List.mem_reverse.2 hitem,
        decide_eq_true (keyOf?_eq_some_iff.2 ⟨hobject, hx ▸ hink, hx ▸ rfl⟩)⟩
    obtain ⟨i, hi⟩ := Option.isSome_iff_exists.1 hlast
    rw [hlookup] at hfound
    split at hfound
    · cases hfound
    · next hne =>
      rw [hi, Option.some_or, Option.some.injEq] at hfound
      exact ⟨fun ht => hne ht.trim_eq, by rw [hi, hfound]; rfl⟩
  · rintro ⟨hblank, hlast⟩
    obtain ⟨i, hi, hid⟩ := Option.map_eq_some_iff.1 hlast
    have hfound := hlookup (Text.trim x)
    rw [if_neg fun he => hblank (Text.isTrimmed_iff.2 he), hi, Option.some_or] at hfound
    exact ⟨_, Fields.mem_of_lookup hfound, hid⟩

end Registrations

namespace World

open Registrations

variable {w : World}

theorem conclude_keeps_handlers (n : Nat) (id : Json) (c : Client) :
    (c.conclude n id).handlers = c.handlers ∧
      (c.conclude n id).registrations = c.registrations := by
  rw [Client.conclude, Client.consumeCancelled_eq]
  exact ⟨rfl, rfl⟩

/-- A request that the protocol answers itself changes the registrations, and nobody's handlers. -/
theorem dispatch_reserved (run : Runner) {v id params : Json} {method : String}
    {r : ReservedRequest}
    (hm : Message.classify v = .ok (.request id method params))
    (handled : w.client.handlers.request? method = some (.reserved r)) :
    (dispatch run w (.value v)).client.handlers = w.client.handlers ∧
    (dispatch run w (.value v)).client.registrations =
      ReservedRequest.handle w.client.registrations (r, params) := by
  have hcall : callRequestHandler run w.client.contexts.length method params id (.reserved r)
      (w.handed method id) =
        changeRegistrations w.client.contexts.length (r.change params) (w.handed method id) := by
    cases r <;> rfl
  have hfound : (w.handed method id).client.context? w.client.contexts.length =
      some ⟨method, id, true, false, false⟩ := context?_openContext method id true w
  rw [client_dispatch_request run hm, handleRequest_eq handled, hcall]
  unfold changeRegistrations ReservedRequest.handle
  have hsame : (w.handed method id).client.registrations = w.client.registrations := rfl
  rw [hsame]
  dsimp only
  cases r.change params w.client.registrations with
  | ok rs =>
    have hopen : ((w.handed method id).updateClient fun c => { c with registrations := rs }
        ).client.context? w.client.contexts.length = some ⟨method, id, true, false, false⟩ := hfound
    dsimp only
    rw [succeed_eq hopen rfl rfl, client_post]
    exact conclude_keeps_handlers ..
  | error f =>
    have hlogged : ((w.handed method id).clientLog .error
        ("Handler for " ++ method ++ " raised")).client = (w.handed method id).client :=
      (addsAsides_clientLog ..).client_eq
    dsimp only
    unfold handlerFailed
    dsimp only
    rw [hlogged, hfound, Option.any_some, if_neg Bool.false_ne_true, failAs,
      failWith_eq (hlogged ▸ hfound) rfl rfl, client_post, updateClient, hlogged]
    exact conclude_keeps_handlers ..

section Undoing

variable {v v' id id' params params' : Json} {items taken : List Json}

/-- An item is registered, in a list of whatever else, and then unregistered by its identifier.
Everything under other keys is left as it was. The item is gone, unless its identifier has blanks
around it and nothing of another identifier took its place in the list. -/
theorem unregister_after_register (run : Runner) (item : Json)
    {requests : List (ReservedRequest × Json)}
    (hw : w.client.registrations = Registrations.after requests)
    (hregister : w.client.handlers.request? "client/registerCapability" =
      some (.reserved .register))
    (hunregister : w.client.handlers.request? "client/unregisterCapability" =
      some (.reserved .unregister))
    (hv : Message.classify v = .ok (.request id "client/registerCapability" params))
    (hv' : Message.classify v' = .ok (.request id' "client/unregisterCapability" params'))
    (hitems : params.fieldD "registrations" = .arr items)
    (htaken : (params'.fieldD "unregisterations").orElse (params'.fieldD "unregistrations") =
      .arr taken)
    (hitem : item ∈ items) (hobject : item.isObject = true)
    (hgone : some (idOf item) ∈ taken.map takes?)
    (honly : ∀ i ∈ taken, ∀ x, takes? i = some x → x = idOf item) :
    let w₁ := dispatch run w (.value v)
    let w₂ := dispatch run w₁ (.value v')
    (∀ key, key ≠ Text.trim (idOf item) →
      w₂.client.registrations.lookup key = w₁.client.registrations.lookup key ∧
      ((∀ i ∈ items, keyOf? i ≠ some key) →
        w₁.client.registrations.lookup key = w.client.registrations.lookup key)) ∧
    ((∃ r ∈ w₂.client.registrations, idOf r.2 = idOf item) ↔
      ¬ Text.IsTrimmed (idOf item) ∧
        (lastUnder? (Text.trim (idOf item)) items).map idOf = some (idOf item)) := by
  intro w₁ w₂
  obtain ⟨hhandlers, h₁⟩ := dispatch_reserved run hv hregister
  obtain ⟨-, h₂⟩ := dispatch_reserved run hv'
    (hhandlers ▸ hunregister : w₁.client.handlers.request? _ = _)
  rw [handle_register hitems] at h₁
  rw [handle_unregister htaken, h₁] at h₂
  have hkeyed : Keyed w.client.registrations := hw ▸ keyed_after requests
  refine ⟨fun key hkey => ⟨?_, fun hnone => ?_⟩, ?_⟩
  · rw [h₂, h₁, lookup_removeItems]
    split
    · next hm =>
      -- An identifier that is unregistered and is not its own key is no key at all.
      obtain ⟨i, hi, ht⟩ := List.mem_map.1 hm
      obtain rfl := honly i hi key ht
      cases hl : (items.foldl addItem w.client.registrations).lookup (idOf item) with
      | none => rfl
      | some u =>
        have hown := (hkeyed.foldl Keyed.addItem items).own _ (Fields.mem_of_lookup hl)
        exact absurd (isTrimmed_of_keyOf? hown).trim_eq.symm hkey
    · rfl
  · have hlast : lastUnder? key items = none := by
      simpa [lastUnder?] using hnone
    rw [h₁, lookup_addItems, hlast, Option.none_or]
  · rw [h₂]
    exact remains_iff hkeyed hitem hobject hgone honly

end Undoing

/-- An item between others, two of which are no items, unregistered with the proper spelling. -/
theorem unregister_after_register_mixed :
    let item (x : String) : Json := .obj [("id", .str x), ("method", .str "m")]
    let request (id : Int) (method : String) (params : Json) : Json :=
      .obj [("jsonrpc", .str "2.0"), ("id", .int id), ("method", .str method), ("params", params)]
    let params : Json :=
      .obj [("registrations", .arr [.null, item " b", item "a", .arr [item "c"]])]
    let params' : Json := .obj [("unregistrations", .arr [item "a"])]
    let w := startClient 0 ⟨true, [], .later, false, []⟩ ⟨.str "", .str "off", [], []⟩
    let w₁ := dispatch (runTo depthLimit) w
      (.value (request 1 "client/registerCapability" params))
    let w₂ := dispatch (runTo depthLimit) w₁
      (.value (request 2 "client/unregisterCapability" params'))
    w₁.client.registrations.keys = ["b", "a"] ∧
      w₂.client.registrations.lookup "b" = w₁.client.registrations.lookup "b" ∧
      ∀ r ∈ w₂.client.registrations, idOf r.2 ≠ "a" := by
  intro item request params params' w
  have hstart : w.client.registrations = Registrations.after [] := rfl
  have honly : ∀ i ∈ [item "a"], ∀ x, takes? i = some x → x = idOf (item "a") := by
    rintro i hi x hx
    obtain rfl := List.mem_singleton.1 hi
    exact (Option.some.inj hx).symm
  have hv : Message.classify (request 1 "client/registerCapability" params) =
      .ok (.request (.int 1) "client/registerCapability" params) := rfl
  have hv' : Message.classify (request 2 "client/unregisterCapability" params') =
      .ok (.request (.int 2) "client/unregisterCapability" params') := rfl
  obtain ⟨hkept, hiff⟩ := unregister_after_register (runTo depthLimit) (item "a") hstart rfl rfl
    hv hv' rfl rfl (List.mem_cons_of_mem _ (List.mem_cons_of_mem _ List.mem_cons_self)) rfl
    (List.mem_singleton.2 rfl) honly
  have hb : "b" ≠ Text.trim (idOf (item "a")) := by decide +kernel
  have ht : Text.IsTrimmed (idOf (item "a")) := by decide +kernel
  dsimp only
  refine ⟨by decide +kernel, (hkept "b" hb).1, fun r hr hid => ?_⟩
  exact (hiff.1 ⟨r, hr, hid⟩).1 ht

/-- What is registered with a blank before its identifier stays registered. -/
theorem registered_though_unregistered :
    let item : Json := .obj [("id", .str " a"), ("method", .str "m")]
    let request (id : Int) (method key : String) : Action := .client (.receive (Frame.encode (.obj
      [("jsonrpc", .str "2.0"), ("id", .int id), ("method", .str method),
        ("params", .obj [(key, .arr [item])])])))
    let w := (startClient 0 ⟨true, [], .later, false, []⟩ ⟨.str "", .str "off", [], []⟩).after
      [request 1 "client/registerCapability" "registrations",
        request 2 "client/unregisterCapability" "unregisterations"]
    w.client.registrations.map (fun r => (r.1, idOf r.2)) = [("a", " a")] := by
  decide +kernel

end World

end GhostText
