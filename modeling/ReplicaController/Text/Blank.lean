/-!
# White space

The twenty-five code points with the Unicode property `White_Space`, and cutting them off the ends
of a text.
-/

namespace ReplicaController.Text

def isBlank (c : Char) : Bool :=
  let n := c.toNat
  (0x9 ≤ n && n ≤ 0xD) || n == 0x20 || n == 0x85 || n == 0xA0 || n == 0x1680 ||
    (0x2000 ≤ n && n ≤ 0x200A) || n == 0x2028 || n == 0x2029 || n == 0x202F || n == 0x205F ||
    n == 0x3000

def trimStart (cs : List Char) : List Char := cs.dropWhile isBlank

def trim (cs : List Char) : List Char := (trimStart (trimStart cs).reverse).reverse

theorem trimStart_blank {cs : List Char} (h : ∀ c ∈ cs, isBlank c = true) : trimStart cs = [] := by
  induction cs with
  | nil => rfl
  | cons c cs ih =>
    have hc := h c List.mem_cons_self
    have hcs := ih fun d hd => h d (List.mem_cons_of_mem c hd)
    simpa [trimStart, hc] using hcs

end ReplicaController.Text
