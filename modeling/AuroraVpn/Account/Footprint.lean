import AuroraVpn.Account.Bought

/-!
# Footprint — the files that a run of a loader leaves

* `load_footprint`: a load makes no file but those of its site, and takes none away but its store.
* `loader_leaves`: so does a whole run, and one that comes back with a device that it registered
  leaves its store.
-/

namespace AuroraVpn
namespace Account

open Program

/-- The files that a run for a site may make. -/
def IdentitySite.Makes (site : IdentitySite) (path : Text) : Prop :=
  path = site.storePath ∨ path = site.path ∨ path = site.storePath ++ ".corrupt".toList

/-- What a run for a site may have done to the files. -/
structure Footprint (site : IdentitySite) (before after : Disk) : Prop where
  kept : ∀ path, path ≠ site.storePath → (before path).isSome → (after path).isSome
  made : ∀ path, (after path).isSome → (before path).isSome ∨ site.Makes path

section Footprint

variable {site : IdentitySite} {before after : Disk} {path text : Text}

theorem Footprint.refl : Footprint site before before where
  kept _ _ h := h
  made _ h := .inl h

/-- A write to a file of the site, or to a file that is there. -/
theorem Footprint.update (h : Footprint site before after)
    (hpath : site.Makes path ∨ (after path).isSome) :
    Footprint site before (Function.update after path (some text)) where
  kept p hp hbefore := by
    by_cases hsame : p = path
    · rw [hsame, Function.update_self]
      rfl
    · rw [Function.update_of_ne hsame]
      exact h.kept p hp hbefore
  made p hp := by
    by_cases hsame : p = path
    · subst hsame
      rcases hpath with hmakes | hthere
      · exact .inr hmakes
      · exact h.made p hthere
    · rw [Function.update_of_ne hsame] at hp
      exact h.made p hp

/-- The store is taken away. -/
theorem Footprint.removed (h : Footprint site before after) :
    Footprint site before (Function.update after site.storePath none) where
  kept p hp hbefore := by
    rw [Function.update_of_ne hp]
    exact h.kept p hp hbefore
  made p hp := by
    by_cases hsame : p = site.storePath
    · exact .inr (.inl hsame)
    · rw [Function.update_of_ne hsame] at hp
      exact h.made p hp

variable (fmt : Formats) (o : LoadOutcome)

theorem setAside_footprint : Footprint site before (setAside fmt o site.storePath before) := by
  unfold setAside
  cases before site.storePath with
  | none => exact .refl
  | some text =>
      cases hparse : Store.parse fmt.store text with
      | ok s =>
          simp only [hparse]
          exact .refl
      | error e =>
          simp only [hparse]
          split_ifs
          · have hcorrupt : site.Makes (site.storePath ++ ".corrupt".toList) := .inr (.inr rfl)
            exact (Footprint.refl.update (.inl hcorrupt)).removed
          · exact .refl

theorem save_footprint (w : WriteOutcome) (s : Store) (h : Footprint site before after) :
    Footprint site before (save fmt w site.storePath s after).2 := by
  rcases save_cases fmt site.storePath s after w with ⟨text, -, hdisk⟩ | hdisk
  · rw [hdisk]
    exact h.update (.inl (.inl rfl))
  · rw [hdisk]
    exact h

theorem writeBack_footprint (s : Store) (h : Footprint site before after) :
    Footprint site before (writeBack fmt o site.storePath s after) := by
  have hsave := save_footprint fmt o.write s h
  unfold writeBack
  dsimp only
  split_ifs
  · exact hsave
  · exact hsave.removed
  · exact hsave

/-- **What a load may do to the files.** -/
theorem load_footprint (legacy : List (Slot × Text)) :
    Footprint site before (load fmt o site.storePath legacy before).2 := by
  have haside : Footprint site before (setAside fmt o site.storePath before) :=
    setAside_footprint fmt o
  unfold load
  dsimp only
  split_ifs
  · exact writeBack_footprint fmt o _ haside
  · exact haside

end Footprint

/-! ## Runs -/

/-- The store of a site is on disk. -/
def HasStore (site : IdentitySite) (w : Traced) : Prop :=
  (w.1.disk site.storePath).isSome

section Runs

variable {env : Env} {site : IdentitySite} {before : Disk} {s : Store} {w : Traced}

/-- What holds wherever a run is cut off, and where it ends. -/
abbrev Leaves (env : Env) (site : IdentitySite) (before : Disk) {α : Type}
    (Q : Except AetherError α → Store → Traced → Prop) (p : StoreTask α) (s : Store) (w : Traced) :
    Prop :=
  wpM (traced (effects env.fmt)) (fun w => Footprint site before w.1.disk) Q p s w

/-- A program that changes no file. -/
theorem still_wp {α : Type} {p : Prog Calls α} (hp : Uses (fun c : Call => c.writes = false) p)
    (h : Footprint site before w.1.disk) :
    wp (traced (effects env.fmt)) (fun w => Footprint site before w.1.disk)
      (fun _ w' => w'.1.disk = w.1.disk) p w := by
  have hkeeps : ∀ c (v : Traced) x v', Call.writes c = false → v.1.disk = w.1.disk →
      traced (effects env.fmt) c v x v' → v'.1.disk = w.1.disk := by
    intro c v x v' hc hv heff
    rw [effects_disk hc heff.1]
    exact hv
  refine (hp.wp hkeeps rfl).mono (fun v hv => ?_) fun _ _ hv _ => hv
  rw [hv]
  exact h

theorem still_network {α : Type} {p : Task α} {allowed : Request → Prop} (hp : Network allowed p) :
    Uses (fun c : Call => c.writes = false) p.run := by
  refine hp.mono fun c hc => ?_
  have hnetwork := hc.network
  cases c with
  | load | writePrivate => cases hnetwork
  | _ => rfl

theorem Wrote.footprint {path text : Text} {r : Except AetherError Unit} {w' : Traced}
    (hwrote : Wrote path text w r w') (h : Footprint site before w.1.disk)
    (hpath : site.Makes path ∨ (w.1.disk path).isSome) : Footprint site before w'.1.disk := by
  rcases hwrote.disk with hdisk | ⟨hdisk, -⟩
  · rw [hdisk]
    exact h.update hpath
  · rw [hdisk]
    exact h

/-- A write takes no file away. -/
theorem Wrote.keeps {path text : Text} {r : Except AetherError Unit} {w' : Traced}
    (hwrote : Wrote path text w r w') {p : Text} (h : (w.1.disk p).isSome) :
    (w'.1.disk p).isSome := by
  rcases hwrote.disk with hdisk | ⟨hdisk, -⟩
  · rw [hdisk]
    by_cases hsame : p = path
    · rw [hsame, Function.update_self]
      rfl
    · rw [Function.update_of_ne hsame]
      exact h
  · rw [hdisk]
    exact h

theorem saveStore_leaves (h : Footprint site before w.1.disk) :
    wp (traced (effects env.fmt)) (fun w => Footprint site before w.1.disk)
      (fun r w' => (r = .ok () → HasStore site w') ∧ (HasStore site w → HasStore site w'))
      (saveStore env site.storePath s).run w := by
  refine wp_saveStore h (fun _ => ⟨nofun, fun hs => hs⟩) ?_
  intro text r w' _ hwrote
  refine ⟨hwrote.footprint h (.inl (.inl rfl)), fun hok => ?_, fun hs => hwrote.keeps hs⟩
  rcases hwrote.disk with hdisk | ⟨-, e, herr⟩
  · unfold HasStore
    rw [hdisk, Function.update_self]
    rfl
  · rw [herr] at hok
    cases hok

theorem saveFile_leaves {identity : Identity} (h : Footprint site before w.1.disk) :
    wp (traced (effects env.fmt)) (fun w => Footprint site before w.1.disk)
      (fun _ w' => HasStore site w → HasStore site w') (saveFile env site.path identity).run w := by
  refine wp_saveFile h (fun _ hs => hs) ?_
  intro text r w' _ hwrote
  exact ⟨hwrote.footprint h (.inl (.inr (.inl rfl))), fun hs => hwrote.keeps hs⟩

theorem record_leaves {identity : Identity} (h : Footprint site before w.1.disk) :
    Leaves env site before (fun r _ w => r = .ok () → HasStore site w)
      (record env site identity) s w := by
  refine wpM_ask_bind h fun now w₁ heff => wpM_modify_bind (wpM_get_bind ?_)
  have hdisk : w₁.1.disk = w.1.disk := effects_disk (c := .now) rfl heff.1
  have h₁ : Footprint site before w₁.1.disk := hdisk ▸ h
  refine wpM_plain_bind (saveStore_leaves h₁) (fun _ _ _ _ => nofun) ?_
  rintro _ w₂ h₂ ⟨hstore, -⟩
  refine wpM_plain (wp.post (saveFile_leaves h₂) ?_)
  exact fun _ _ _ hkeeps _ => hkeeps (hstore rfl)

/-- What is done once a device is on record keeps its store. -/
theorem adoptTeamProfile_leaves {identity : Identity} (h : Footprint site before w.1.disk) :
    wp (traced (effects env.fmt)) (fun w => Footprint site before w.1.disk)
      (fun _ w' => w'.1.disk = w.1.disk) (adoptTeamProfile env identity).run w :=
  have hnetwork : Network (fun _ => True) (adoptTeamProfile env identity) :=
    network_adoptTeamProfile env trivial
  still_wp (still_network hnetwork) h

theorem markAll_leaves {identity : Identity} (paths : List Text)
    (h : Footprint site before w.1.disk) (hthere : ∀ path ∈ paths, (w.1.disk path).isSome) :
    wp (traced (effects env.fmt)) (fun w => Footprint site before w.1.disk)
      (fun _ w' => HasStore site w → HasStore site w') (markAll env identity paths).run w := by
  induction paths generalizing w with
  | nil => exact wp_ok h fun hs => hs
  | cons path paths ih =>
      -- a file that was marked is there still
      have hmarked : wp (traced (effects env.fmt)) (fun w => Footprint site before w.1.disk)
          (fun _ w' => ∀ p, (w.1.disk p).isSome → (w'.1.disk p).isSome)
          (saveMasqueCreds env path identity.certPem [] identity.certIssuedAt).run w := by
        refine wp_ask_bind h fun text w₁ heff => ?_
        have hdisk : w₁.1.disk = w.1.disk := effects_disk (c := .read path) rfl heff.1
        have h₁ : Footprint site before w₁.1.disk := hdisk ▸ h
        have hsame : ∀ p, (w.1.disk p).isSome → (w₁.1.disk p).isSome := fun p hp => hdisk ▸ hp
        cases text with
        | none => exact wp_ok h₁ hsame
        | some text =>
            refine wp_bind_except (R := fun _ v => v = w₁) (wp_result h₁ rfl) ?_ ?_
            · rintro e v - rfl
              exact hsame
            · rintro persisted v - rfl
              refine wp_bind_except (R := fun _ u => u = v) (wp_result h₁ rfl) ?_ ?_
              · rintro e u - rfl
                exact hsame
              · rintro updated u - rfl
                refine wp_write h₁ fun r u' hwrote => ⟨?_, ?_⟩
                · exact hwrote.footprint h₁ (.inr (hsame path (hthere path (List.mem_cons_self ..))))
                · exact fun p hp => hwrote.keeps (hsame p hp)
      have hcaught : wp (traced (effects env.fmt)) (fun w => Footprint site before w.1.disk)
          (fun _ w' => ∀ p, (w.1.disk p).isSome → (w'.1.disk p).isSome)
          (tryCatch (saveMasqueCreds env path identity.certPem [] identity.certIssuedAt)
            fun _ => pure () : Task Unit).run w :=
        wp_tryCatch hmarked (fun _ _ _ hkept => hkept) fun _ _ hfoot hkept => wp_ok hfoot hkept
      refine wp_bind_except hcaught (fun _ _ _ hkept hs => hkept _ hs) ?_
      intro _ w₁ h₁ hkept
      refine wp.post (ih h₁ fun p hp => hkept p (hthere p (List.mem_cons_of_mem _ hp))) ?_
      exact fun _ _ _ hkeeps hs => hkeeps (hkept _ hs)

theorem recordEnrolmentBeside_leaves {identity : Identity} (h : Footprint site before w.1.disk) :
    wp (traced (effects env.fmt)) (fun w => Footprint site before w.1.disk)
      (fun _ w' => HasStore site w → HasStore site w')
      (recordEnrolmentBeside env site.path identity).run w := by
  unfold recordEnrolmentBeside
  split_ifs
  · exact wp_ok h fun hs => hs
  · refine wp_ask_bind h fun found w₁ heff => ?_
    have hdisk : w₁.1.disk = w.1.disk := effects_disk (c := .siblings site.path) rfl heff.1
    have h₁ : Footprint site before w₁.1.disk := hdisk ▸ h
    -- each path that is marked was read, so it is there already
    have hthere : ∀ path ∈ toMark identity found, (w₁.1.disk path).isSome := by
      intro path hpath
      obtain ⟨file, hfile, rfl⟩ := List.mem_map.1 hpath
      obtain ⟨-, hpeek⟩ := heff.1.1 file (List.mem_of_mem_filter hfile)
      rw [hdisk]
      cases htext : w.1.disk file.1 with
      | some text => rfl
      | none => cases (peek_absent htext).symm.trans hpeek
    refine wp.post (markAll_leaves _ h₁ hthere) fun _ _ _ hkeeps hs => hkeeps ?_
    unfold HasStore
    rw [hdisk]
    exact hs

/-- A device that comes out of an enrolment is on record. -/
theorem enrolAndRecord_leaves {identity : Identity} (h : Footprint site before w.1.disk) :
    Leaves env site before (fun r _ w => r.toOption.isSome → HasStore site w)
      (enrolAndRecord env site identity) s w := by
  refine wpM_ask_bind h fun now w₁ heff => wpM_modify_bind (wpM_get_bind ?_)
  have hdisk : w₁.1.disk = w.1.disk := effects_disk (c := .now) rfl heff.1
  have h₁ : Footprint site before w₁.1.disk := hdisk ▸ h
  refine wpM_plain_bind (saveStore_leaves h₁) (fun _ _ _ _ => nofun) ?_
  rintro _ w₂ h₂ -
  have hstill : Uses (fun c : Call => c.writes = false) (ensureMasqueEnrolled env identity).run :=
    (idle_ensureMasqueEnrolled identity).mono fun _ hc => hc.writes
  refine wpM_plain_bind (still_wp hstill h₂) (fun _ _ _ _ => nofun) ?_
  rintro enrollment w₃ h₃ -
  refine wpM_plain_bind (adoptTeamProfile_leaves h₃) (fun _ _ _ _ => nofun) ?_
  rintro adopted w₄ h₄ -
  refine wpM_bind (record_leaves h₄) (fun _ _ _ _ _ => nofun) ?_
  intro _ s₅ w₅ h₅ hstore
  refine wpM_plain_bind (recordEnrolmentBeside_leaves h₅) (fun _ _ _ _ => nofun) ?_
  exact fun _ w₆ h₆ hkeeps => wpM_ok h₆ fun _ => hkeeps (hstore rfl)

theorem provisionWithinBudget_leaves (h : Footprint site before w.1.disk) :
    Leaves env site before (fun _ _ _ => True) (provisionWithinBudget env site) s w := by
  -- a call that writes no file leaves the footprint as it is
  have hstep : ∀ {c : Call} {x : c.Answer} {v v' : Traced}, c.writes = false →
      Footprint site before v.1.disk → traced (effects env.fmt) c v x v' →
      Footprint site before v'.1.disk := fun hc hv heff => (effects_disk hc heff.1).symm ▸ hv
  refine wpM_ask_bind h fun now w₁ heff => wpM_get_bind ?_
  have h₁ := hstep rfl h heff
  cases s.registration.mayAttempt now with
  | error wait => exact wpM_throw h₁ trivial
  | ok _ =>
      have haccount := @still_wp env site before w₁ _ _
        (still_network (network_provisionAccount env)) h₁
      refine wpM_tryCatch (R := fun _ _ _ => True) ?_ (fun _ _ _ _ _ => trivial) ?_
      · refine wpM_plain_bind haccount (fun _ _ _ _ => trivial) ?_
        rintro identity w₂ h₂ -
        refine wpM_ask_bind h₂ fun later w₃ heff₃ => wpM_modify_bind ?_
        exact wpM_ok (hstep rfl h₂ heff₃) trivial
      -- the failure is noted in the store, and comes out whatever the write of the store says
      · rintro e s₂ w₂ h₂ -
        refine wpM_ask_bind h₂ fun later w₃ heff₃ => wpM_modify_bind (wpM_get_bind ?_)
        have h₃ := hstep rfl h₂ heff₃
        refine wpM_bind (R := fun _ _ _ => True) ?_ (fun _ _ _ _ _ => trivial) ?_
        · refine wpM_tryCatch (R := fun _ _ _ => True) ?_ (fun _ _ _ _ _ => trivial) ?_
          · exact wpM_plain (wp.post (saveStore_leaves h₃) fun _ _ _ _ => trivial)
          · exact fun _ _ _ h₄ _ => wpM_ok h₄ trivial
        · exact fun _ _ _ h₄ _ => wpM_throw h₄ trivial

/-- **A device that was registered and comes back is on record.** -/
theorem provisionWarp_leaves (h : Footprint site before w.1.disk) :
    Leaves env site before (fun r _ w => r.toOption.isSome → HasStore site w)
      (provisionWarp env site) s w := by
  refine wpM_bind (provisionWithinBudget_leaves h) (fun _ _ _ _ _ => nofun) ?_
  rintro identity s₁ w₁ h₁ -
  refine wpM_bind (record_leaves h₁) (fun _ _ _ _ _ => nofun) ?_
  rintro _ s₂ w₂ h₂ -
  refine wpM_plain_bind (adoptTeamProfile_leaves h₂) (fun _ _ _ _ => nofun) ?_
  rintro adopted w₃ h₃ -
  refine wpM_bind (record_leaves h₃) (fun _ _ _ _ _ => nofun) ?_
  exact fun _ s₄ w₄ h₄ hstore => wpM_ok h₄ fun _ => hstore rfl

theorem provisionMasque_leaves (h : Footprint site before w.1.disk) :
    Leaves env site before (fun r _ w => r.toOption.isSome → HasStore site w)
      (provisionMasque env site) s w := by
  refine wpM_bind (provisionWithinBudget_leaves h) (fun _ _ _ _ _ => nofun) ?_
  rintro identity s₁ w₁ h₁ -
  refine wpM_bind (record_leaves h₁) (fun _ _ _ _ _ => nofun) ?_
  exact fun _ s₂ w₂ h₂ _ => enrolAndRecord_leaves h₂

/-! ## Loaders -/

/-- What a run says of its store where it comes back with a device. -/
def Stores (site : IdentitySite) (r : Except AetherError Identity) (w : Traced) : Prop :=
  r.toOption.isSome → Sent w.2 → HasStore site w

/-- A program that neither registers a device nor changes a file. -/
theorem idle_leaves {α : Type} {p : Prog Calls α} (hp : Uses Call.Idle p)
    (h : Footprint site before w.1.disk) (hsent : ¬Sent w.2) :
    wp (traced (effects env.fmt)) (fun w => Footprint site before w.1.disk) (fun _ w => ¬Sent w.2)
      p w := by
  have hstill := @still_wp env site before w _ _ (hp.mono fun _ hc => hc.writes) h
  have hsilent := @silent_thrifty env [] w _ _ hsent (hp.mono fun _ hc => hc.registers)
  exact (hstill.and hsilent).mono (fun _ hw => hw.1) fun _ _ _ hw => hw.2

theorem load_leaves {Q : Except AetherError Identity → Store → Traced → Prop}
    {next : Loaded → StoreTask Identity}
    (hnext : ∀ loaded w, Footprint site before w.1.disk → ¬Sent w.2 →
      Leaves env site before Q (next loaded) s w) :
    Leaves env site before Q (do
      plain (ask .lock)
      let loaded ← plain (ask (.load site.storePath site.legacy))
      next loaded) s (.start before) := by
  have hstart : ¬Sent (Traced.start before).2 := fun ⟨e, hmem, _⟩ => by cases hmem
  have h : Footprint site before (Traced.start before).1.disk := .refl
  refine wpM_ask_bind h fun _ w₁ hlock => ?_
  have hdisk : w₁.1.disk = before := effects_disk (c := .lock) rfl hlock.1
  have hsent₁ := not_sent_step hstart rfl hlock
  refine wpM_ask_bind (hdisk ▸ .refl) fun loaded w₂ hload => ?_
  refine hnext loaded w₂ ?_ (not_sent_step hsent₁ rfl hload)
  obtain ⟨⟨o, hloaded, -, -⟩, -⟩ := hload
  obtain ⟨-, hafter⟩ := Prod.mk.inj hloaded
  rw [hafter, hdisk]
  exact load_footprint env.fmt o site.legacy

theorem loadOrProvisionWarp_leaves :
    Leaves env site before (fun r _ w => Stores site r w) (loadOrProvisionWarp env site) s
      (.start before) := by
  refine load_leaves fun loaded w h hsent => wpM_set_bind ?_
  cases loaded.store.takeUsable site.slot with
  | none => exact wpM.post (provisionWarp_leaves h) fun _ _ _ _ hr hok _ => hr hok
  | some usable =>
      obtain ⟨id, device⟩ := usable
      refine wpM_plain_bind (R := fun _ _ => True) ?_ (fun _ _ _ _ => nofun) ?_
      -- the siblings are looked up before the device is used
      · refine wp_ask_bind h fun found w₁ heff => wp_ok ?_ trivial
        rw [effects_disk (c := .siblings site.path) rfl heff.1]
        exact h
      · rintro found w₁ h₁ -
        cases found with
        | some other => exact wpM.post (provisionWarp_leaves h₁) fun _ _ _ _ hr hok _ => hr hok
        | none =>
            refine wpM_plain_bind (wp_result (R := fun _ _ => True) h₁ trivial)
              (fun _ _ _ _ => nofun) ?_
            rintro identity w₂ h₂ -
            refine wpM_plain_bind (adoptTeamProfile_leaves h₂) (fun _ _ _ _ => nofun) ?_
            rintro adopted w₃ h₃ -
            refine wpM_bind (record_leaves h₃) (fun _ _ _ _ _ => nofun) ?_
            exact fun _ s₄ w₄ h₄ hstore => wpM_ok h₄ fun _ _ => hstore rfl

/-- A refusal is marked, and another device takes the place of the one that was refused. -/
theorem replaced_leaves {id : Text} (h : Footprint site before w.1.disk) :
    Leaves env site before (fun r _ w => Stores site r w)
      (do
        markRefused id
        provisionMasque env site) s w := by
  have hmark : Leaves env site before (fun _ _ _ => True) (markRefused id) s w := by
    refine wpM_ask_bind h fun now w₁ heff => wpM_modify ?_ trivial
    rw [effects_disk (c := .now) rfl heff.1]
    exact h
  refine wpM_bind hmark (fun _ _ _ _ _ => nofun) ?_
  rintro _ s₁ w₁ h₁ -
  exact wpM.post (provisionMasque_leaves h₁) fun _ _ _ _ hr hok _ => hr hok

theorem resumeMasque_leaves {id : Text} {device : Device} (h : Footprint site before w.1.disk)
    (hsent : ¬Sent w.2) :
    Leaves env site before (fun r _ w => Stores site r w) (resumeMasque env site id device) s w := by
  refine wpM_plain_bind (R := fun _ w => ¬Sent w.2) (wp_result h hsent) (fun _ _ _ _ => nofun) ?_
  rintro identity w₁ h₁ hsent₁
  refine wpM_plain_bind (idle_leaves (idle_hasMasqueCredentials identity) h₁ hsent₁)
    (fun _ _ _ _ => nofun) ?_
  rintro credentials w₂ h₂ hsent₂
  -- with a certificate kept the record is renewed: what is left out is the enrolment
  by_cases hheld : credentials = true
  · rw [if_pos hheld]
    refine wpM_plain_bind (idle_leaves (idle_adoptTeamProfile identity) h₂ hsent₂)
      (fun _ _ _ _ => nofun) ?_
    rintro adopted w₃ h₃ hsent₃
    split_ifs
    · refine wpM_bind (record_leaves h₃) (fun _ _ _ _ _ => nofun) ?_
      exact fun _ s₄ w₄ h₄ hstore => wpM_ok h₄ fun _ _ => hstore rfl
    · exact wpM_ok h₃ fun _ hs => absurd hs hsent₃
    · exact replaced_leaves h₃
  · rw [if_neg hheld]
    -- without one an enrolment, which registers nothing, and its record
    have henrol : Leaves env site before
        (fun r _ w => (r.toOption.isSome → HasStore site w) ∧ ¬Sent w.2)
        (enrolAndRecord env site identity) s w₂ := by
      have hsilent := @silent_thrifty env [] w₂ _ _ hsent₂ (@silent_enrolAndRecord env site identity s)
      exact (wp.and (enrolAndRecord_leaves h₂) hsilent).mono (fun _ hw => hw.1) fun _ _ _ hr => hr
    refine wpM_tryCatch henrol (fun _ _ _ _ hr hok _ => hr.1 hok) ?_
    rintro e s₃ w₃ h₃ ⟨-, hsent₃⟩
    -- a refused identity: the device is replaced, which is the registration again
    cases e with
    | identityRefused message =>
        dsimp only
        split_ifs
        · exact wpM_ok h₃ fun _ hs => absurd hs hsent₃
        · exact replaced_leaves h₃
    | _ => exact wpM_throw h₃ nofun

theorem loadOrProvisionMasque_leaves :
    Leaves env site before (fun r _ w => Stores site r w) (loadOrProvisionMasque env site) s
      (.start before) := by
  refine load_leaves fun loaded w h hsent => wpM_set_bind ?_
  cases loaded.store.takeUsable site.slot with
  | none => exact wpM.post (provisionMasque_leaves h) fun _ _ _ _ hr hok _ => hr hok
  | some usable => exact resumeMasque_leaves h hsent

/-- **What a run of a loader leaves**: wherever it is cut off it made no file but those of its site,
and where it comes back with a device that it registered its store is there. -/
theorem loader_leaves (loader : Loader) :
    Leaves env site before (fun r _ w => Stores site r w) (loader.program env site) s
      (.start before) := by
  cases loader with
  | warp => exact loadOrProvisionWarp_leaves
  | masque => exact loadOrProvisionMasque_leaves

end Runs

end Account
end AuroraVpn
