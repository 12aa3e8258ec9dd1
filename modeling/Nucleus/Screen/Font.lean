/-!
The font: a cell of eight columns and thirteen rows for each printable
character of ASCII and for delete.  Any other character looks like a question
mark.
-/

namespace Nucleus

namespace Font

def cellWidth : Nat := 8

def cellHeight : Nat := 13

/-- The cells from the blank on, each as one number: eight bits a row, the top
row and the leftmost column first. -/
def cells : Array Nat :=
  #[0x00000000000000000000000000, 0x00001010101010101000100000,
    0x00002424240000000000000000, 0x00000024247e247e2424000000,
    0x0000103c505038141478100000, 0x0000225224080810242a440000,
    0x00000000304848304a443a0000, 0x00001010100000000000000000,
    0x00000408081010100808040000, 0x00002010100808081010200000,
    0x000024187e1824000000000000, 0x0000000010107c101000000000,
    0x00000000000000000038304000, 0x0000000000007c000000000000,
    0x00000000000000000010381000, 0x00000202040810204080800000,
    0x00001824424242424224180000, 0x000010305010101010107c0000,
    0x00003c424202041820407e0000, 0x00007e0204081c0202423c0000,
    0x0000040c142444447e04040000, 0x00007e40405c620202423c0000,
    0x00001c2040405c6242423c0000, 0x00007e02040808101020200000,
    0x00003c4242423c4242423c0000, 0x00003c4242463a020204380000,
    0x00000000103810000010381000, 0x00000000103810000038304000,
    0x00000204081020100804020000, 0x00000000007e00007e00000000,
    0x00004020100804081020400000, 0x00003c42420204080800080000,
    0x00003c42424e52564a403c0000, 0x000018244242427e4242420000,
    0x00007844424478444244780000, 0x00003c424040404040423c0000,
    0x00007844424242424244780000, 0x00007e404040784040407e0000,
    0x00007e40404078404040400000, 0x00003c424040404e42463a0000,
    0x0000424242427e424242420000, 0x00007c101010101010107c0000,
    0x00001f04040404040444380000, 0x00004244485060504844420000,
    0x000040404040404040407e0000, 0x00008282c6aa92928282820000,
    0x0000424262524a464242420000, 0x00003c424242424242423c0000,
    0x00007c4242427c404040400000, 0x00003c4242424242524a3c0200,
    0x00007c4242427c504844420000, 0x00003c4240403c0202423c0000,
    0x0000fe10101010101010100000, 0x000042424242424242423c0000,
    0x00008282444444282828100000, 0x000082828282929292aa440000,
    0x00008282442810284482820000, 0x00008282442810101010100000,
    0x00007e020408102040407e0000, 0x00003c202020202020203c0000,
    0x00008080402010080402020000, 0x00007808080808080808780000,
    0x00001028440000000000000000, 0x0000000000000000000000fe00,
    0x00100800000000000000000000, 0x00000000003c023e42463a0000,
    0x00004040405c624242625c0000, 0x00000000003c424040423c0000,
    0x00000202023a464242463a0000, 0x00000000003c427e40423c0000,
    0x00001c2220207c202020200000, 0x00000000003a444438403c423c,
    0x00004040405c62424242420000, 0x000000100030101010107c0000,
    0x00000004000c04040404444438, 0x00004040404448704844420000,
    0x000030101010101010107c0000, 0x0000000000ec92929292820000,
    0x00000000005c62424242420000, 0x00000000003c424242423c0000,
    0x00000000005c6242625c404040, 0x00000000003a4642463a020202,
    0x00000000005c22202020200000, 0x00000000003c42300c423c0000,
    0x00000020207c202020221c0000, 0x000000000044444444443a0000,
    0x00000000004444442828100000, 0x000000000082829292aa440000,
    0x00000000004224181824420000, 0x0000000000424242463a02423c,
    0x00000000007e040810207e0000, 0x00000e101008300810100e0000,
    0x00001010101010101010100000, 0x0000700808100c100808700000,
    0x00002454480000000000000000, 0x00003c42420204080800080000]

def cellIndex (char : Char) : Nat :=
  if 0x20 ≤ char.toNat ∧ char.toNat ≤ 0x7f then char.toNat - 0x20 else 0x1f

def cell (char : Char) : Nat :=
  cells[cellIndex char]?.getD 0

def isLit (char : Char) (column row : Nat) : Bool :=
  column < cellWidth && row < cellHeight &&
    (cell char).testBit (cellWidth * cellHeight - 1 - (row * cellWidth + column))

end Font

end Nucleus
