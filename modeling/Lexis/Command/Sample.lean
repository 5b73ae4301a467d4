/-
The sample program, for a first try of the command.
-/
namespace Lexis.Command

/-- The lines of the sample program. -/
def sampleLines : List String :=
  ["class Factorial \x7b",
   "    public static void main(String[] a) \x7b",
   "        System.out.println(new Fac().ComputeFac(10));",
   "    \x7d",
   "\x7d",
   "",
   "class Fac \x7b",
   "    public int ComputeFac(int num) \x7b",
   "        int num_aux;",
   "        if (num < 1)",
   "            num_aux = 1;",
   "        else",
   "            num_aux = num * (this.ComputeFac(num-1));",
   "        return num_aux;",
   "    \x7d",
   "\x7d",
   ""]

/-- The sample program. -/
def sampleProgram : String :=
  "\n".intercalate sampleLines

/-- The name that the sample program has as a source. -/
def sampleName : String := "<sample>"

end Lexis.Command
