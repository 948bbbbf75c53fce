/-!
# The built-in image

A program that fills sixteen cells with the Fibonacci numbers 1, 2, 3, 5, and so on. It keeps the
last two terms and a pointer to the cell to write next in memory, writes and reads back each new
term through the pointer, and halts when the pointer reaches the cell behind the table.

```text
00  1080  LOAD #$80
01  129F  STOR $9F       ; pointer = $80
02  1001  LOAD #$01
03  1290  STOR $90       ; lag = 1
04  1291  STOR $91       ; lead = 1
05  139F  STOR ($9F)     ; table[pointer] = 1
06  119F  LOAD $9F       ; loop:
07  2001  ADD #$01
08  129F  STOR $9F       ; pointer += 1
09  2690  CMP #$90
0A  3013  BREQ $13       ; pointer = $90 -> done
0B  1190  LOAD $90
0C  2191  ADD $91        ; sum = lag + lead
0D  139F  STOR ($9F)     ; table[pointer] = sum
0E  1191  LOAD $91
0F  1290  STOR $90       ; lag = lead
10  149F  LOAD ($9F)
11  1291  STOR $91       ; lead = sum
12  4006  JUMP $06
13  0000  HALT           ; done:
```
-/

namespace Accumulator.Image.Fibonacci

/-- The words of the program, for the origin `$00`. -/
def image : List UInt16 :=
  [0x1080, 0x129F, 0x1001, 0x1290, 0x1291, 0x139F, 0x119F, 0x2001, 0x129F, 0x2690,
    0x3013, 0x1190, 0x2191, 0x139F, 0x1191, 0x1290, 0x149F, 0x1291, 0x4006, 0x0000]

/-- The first cell of the table. -/
def tableBase : UInt16 := 0x80

/-- The cell of the term before the last. -/
def lagCell : UInt16 := 0x90

/-- The cell of the last term. -/
def leadCell : UInt16 := 0x91

/-- The cell of the pointer into the table. -/
def pointerCell : UInt16 := 0x9F

/-- The address of the halt instruction. -/
def haltAddress : UInt16 := 0x13

/-- The table that the program leaves. -/
def table : List UInt16 :=
  [1, 2, 3, 5, 8, 13, 21, 34, 55, 89, 144, 233, 377, 610, 987, 1597]

end Accumulator.Image.Fibonacci
