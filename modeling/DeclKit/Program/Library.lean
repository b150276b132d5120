/-
The built-in library: the declarations that common utility types need.

Braces are written as escapes throughout the literal.
-/

set_option autoImplicit false

namespace DeclKit.Library

/-- The name under which the built-in library is registered. -/
def name : String := "lib.d.ts"

/-- The text of the built-in library. -/
def text : String := "// Default library bundled into fddtsc. Only the declarations the type
// checker needs to evaluate common utility types are included.

interface Object \x7b\x7d

interface Function \x7b\x7d

interface Boolean \x7b
    valueOf(): boolean;
\x7d

interface Number \x7b
    toString(radix?: number): string;
    toFixed(fractionDigits?: number): string;
    valueOf(): number;
\x7d

interface String \x7b
    readonly length: number;
    charAt(pos: number): string;
    indexOf(searchString: string, position?: number): number;
    slice(start?: number, end?: number): string;
    split(separator: string, limit?: number): string[];
    toUpperCase(): string;
    toLowerCase(): string;
    trim(): string;
    valueOf(): string;
    readonly [index: number]: string;
\x7d

interface ReadonlyArray<T> \x7b
    readonly length: number;
    indexOf(searchElement: T, fromIndex?: number): number;
    join(separator?: string): string;
    slice(start?: number, end?: number): T[];
    map<U>(callbackfn: (value: T, index: number, array: readonly T[]) => U, thisArg?: any): U[];
    filter(predicate: (value: T, index: number, array: readonly T[]) => unknown, thisArg?: any): T[];
    readonly [n: number]: T;
\x7d

interface Array<T> \x7b
    length: number;
    pop(): T | undefined;
    push(...items: T[]): number;
    indexOf(searchElement: T, fromIndex?: number): number;
    join(separator?: string): string;
    slice(start?: number, end?: number): T[];
    map<U>(callbackfn: (value: T, index: number, array: T[]) => U, thisArg?: any): U[];
    filter(predicate: (value: T, index: number, array: T[]) => unknown, thisArg?: any): T[];
    [n: number]: T;
\x7d

interface PromiseLike<T> \x7b
    then<TResult1 = T, TResult2 = never>(
        onfulfilled?: ((value: T) => TResult1 | PromiseLike<TResult1>) | undefined | null,
        onrejected?: ((reason: any) => TResult2 | PromiseLike<TResult2>) | undefined | null,
    ): PromiseLike<TResult1 | TResult2>;
\x7d

interface Promise<T> \x7b
    then<TResult1 = T, TResult2 = never>(
        onfulfilled?: ((value: T) => TResult1 | PromiseLike<TResult1>) | undefined | null,
        onrejected?: ((reason: any) => TResult2 | PromiseLike<TResult2>) | undefined | null,
    ): Promise<TResult1 | TResult2>;
    catch<TResult = never>(
        onrejected?: ((reason: any) => TResult | PromiseLike<TResult>) | undefined | null,
    ): Promise<T | TResult>;
\x7d

type PropertyKey = string | number | symbol;

type Partial<T> = \x7b
    [P in keyof T]?: T[P];
\x7d;

type Required<T> = \x7b
    [P in keyof T]-?: T[P];
\x7d;

type Readonly<T> = \x7b
    readonly [P in keyof T]: T[P];
\x7d;

type Pick<T, K extends keyof T> = \x7b
    [P in K]: T[P];
\x7d;

type Record<K extends keyof any, T> = \x7b
    [P in K]: T;
\x7d;

type Exclude<T, U> = T extends U ? never : T;

type Extract<T, U> = T extends U ? T : never;

type Omit<T, K extends keyof any> = Pick<T, Exclude<keyof T, K>>;

type NonNullable<T> = T extends null | undefined ? never : T;

type Parameters<T extends (...args: any) => any> = T extends (...args: infer P) => any ? P : never;

type ConstructorParameters<T extends abstract new (...args: any) => any> = T extends abstract new (...args: infer P) => any ? P : never;

type ReturnType<T extends (...args: any) => any> = T extends (...args: any) => infer R ? R : any;

type InstanceType<T extends abstract new (...args: any) => any> = T extends abstract new (...args: any) => infer R ? R : any;

type Awaited<T> = T extends null | undefined ? T :
    T extends object & \x7b then(onfulfilled: infer F, ...args: infer _): any; \x7d ?
        F extends ((value: infer V, ...args: infer _) => any) ? Awaited<V> : never :
    T;

type Uppercase<S extends string> = intrinsic;

type Lowercase<S extends string> = intrinsic;

type Capitalize<S extends string> = intrinsic;

type Uncapitalize<S extends string> = intrinsic;
"

end DeclKit.Library
